import Mtop.Library.DepthFirst
import Mtop.Ui.RowOrder
import Mathlib.Data.Finset.Card

/-! The rows of the tree view. `dfs` is the depth-first listing of the parent links, whatever they
look like; the roots, the children and the last pass over all processes together list everything. -/
namespace Mtop
open Cxx
set_option autoImplicit false

/-! ## The walk as a depth-first listing -/

/-- A row without what is drawn in front of it. -/
def ProcessRow.entry (row : ProcessRow) : ProcessSnapshot × ℕ := (row.process, row.depth)

/-- The walk has listed these rows, and their pids are the ones it has visited. -/
structure TreeWalk.Lists (walk : TreeWalk) (out : List (ProcessSnapshot × ℕ)) : Prop where
  rows : walk.rows.map (·.entry) = out
  visited : ∀ pid, pid ∈ walk.visited ↔ ∃ row ∈ out, row.1.pid = pid

/-- What the walk goes on to below a process. -/
def shownChildren (children : ℤ → List ProcessSnapshot) (collapsedPids : Finset ℤ)
    (process : ProcessSnapshot) : List ProcessSnapshot :=
  if process.pid ∈ collapsedPids then [] else children process.pid

/-- The recursion of the source, which has no bound on its depth. -/
abbrev DepthFirstTree (children : ℤ → List ProcessSnapshot) (collapsedPids : Finset ℤ) :
    ℕ → List ProcessSnapshot → List (ProcessSnapshot × ℕ) → List (ProcessSnapshot × ℕ) → Prop :=
  DepthFirst (fun process : ProcessSnapshot => process.pid) (shownChildren children collapsedPids)

section Walk
variable {children : ℤ → List ProcessSnapshot} {collapsedPids pids : Finset ℤ} {depth bound : ℕ}

theorem TreeWalk.Lists.left_le {walk walk' : TreeWalk} {out out' : List (ProcessSnapshot × ℕ)}
    (h : walk.Lists out) (h' : walk'.Lists out') (hsub : out ⊆ out') :
    (pids \ walk'.visited).card ≤ (pids \ walk.visited).card := by
  refine Finset.card_le_card (Finset.sdiff_subset_sdiff subset_rfl fun pid hpid => ?_)
  obtain ⟨row, hrow, hkey⟩ := (h.visited pid).mp hpid
  exact (h'.visited pid).mpr ⟨row, hsub hrow, hkey⟩

/-- The walk at this depth lists as the recursion does while at most `bound` pids are left. -/
def Follows (children : ℤ → List ProcessSnapshot) (collapsedPids pids : Finset ℤ) (bound depth : ℕ)
    (visit : TreeWalk → ProcessSnapshot → TreeWalk) : Prop :=
  ∀ walk out process, walk.Lists out → process.pid ∈ pids → (pids \ walk.visited).card ≤ bound →
    ∃ out', DepthFirstTree children collapsedPids depth [process] out out' ∧
      (visit walk process).Lists out'

theorem Follows.foldl {visit : TreeWalk → ProcessSnapshot → TreeWalk}
    (h : Follows children collapsedPids pids bound depth visit) {processes : List ProcessSnapshot}
    (hmem : ∀ process ∈ processes, process.pid ∈ pids) {walk : TreeWalk}
    {out : List (ProcessSnapshot × ℕ)} (hlists : walk.Lists out)
    (hleft : (pids \ walk.visited).card ≤ bound) :
    ∃ out', DepthFirstTree children collapsedPids depth processes out out' ∧
      (processes.foldl visit walk).Lists out' := by
  induction processes generalizing walk out with
  | nil => exact ⟨out, .nil _ _, hlists⟩
  | cons process processes ih =>
    obtain ⟨mid, hfirst, hmid⟩ := h walk out process hlists (hmem _ List.mem_cons_self) hleft
    obtain ⟨out', hrest, hout'⟩ := ih (fun p hp => hmem p (List.mem_cons_of_mem _ hp)) hmid
      ((hlists.left_le hmid hfirst.subset).trans hleft)
    exact ⟨out', hfirst.append hrest, hout'⟩

/-- The walk after a process has been entered. -/
def TreeWalk.enter (walk : TreeWalk) (row : ProcessRow) : TreeWalk where
  visited := insert row.process.pid walk.visited
  rows := walk.rows ++ [row]

theorem TreeWalk.Lists.enter {walk : TreeWalk} {out : List (ProcessSnapshot × ℕ)}
    (h : walk.Lists out) (row : ProcessRow) : (walk.enter row).Lists (out ++ [row.entry]) where
  rows := by
    rw [← h.rows]
    exact List.map_append
  visited pid := by
    have hvisited := h.visited pid
    simp only [TreeWalk.enter, Finset.mem_insert, List.mem_append, List.mem_singleton, hvisited,
      or_and_right, exists_or, exists_eq_left, eq_comm (a := pid), ProcessRow.entry]
    exact or_comm

theorem TreeWalk.left_enter {walk : TreeWalk} {row : ProcessRow} (hmem : row.process.pid ∈ pids)
    (hnew : row.process.pid ∉ walk.visited) (hleft : (pids \ walk.visited).card ≤ bound + 1) :
    (pids \ (walk.enter row).visited).card ≤ bound := by
  have herase : pids \ (walk.enter row).visited =
      (pids \ walk.visited).erase row.process.pid := Finset.sdiff_insert _ _ _
  have hlt := Finset.card_erase_lt_of_mem (Finset.mem_sdiff.mpr ⟨hmem, hnew⟩)
  rw [herase]
  omega

/-- The row with which the walk enters a process. -/
def enteredRow (children : ℤ → List ProcessSnapshot) (collapsedPids : Finset ℤ)
    (process : ProcessSnapshot) (depth : ℕ) : ProcessRow :=
  let hasChildren := decide (children process.pid ≠ [])
  ⟨process, depth, hasChildren, hasChildren && decide (process.pid ∈ collapsedPids)⟩

theorem dfs_seen {walk : TreeWalk} {process : ProcessSnapshot} (h : process.pid ∈ walk.visited)
    (fuel : ℕ) : dfs children collapsedPids (fuel + 1) process depth walk = walk := if_pos h

theorem dfs_new {walk : TreeWalk} {process : ProcessSnapshot} (h : process.pid ∉ walk.visited)
    (fuel : ℕ) :
    dfs children collapsedPids (fuel + 1) process depth walk =
      let row := enteredRow children collapsedPids process depth
      if row.collapsed then walk.enter row
      else (children process.pid).foldl
        (fun walk child => dfs children collapsedPids fuel child (depth + 1) walk)
        (walk.enter row) := if_neg h

/-- Below a collapsed row the walk stops; below any other it goes on to all children. -/
theorem shownChildren_eq (process : ProcessSnapshot) (depth : ℕ) :
    shownChildren children collapsedPids process =
      if (enteredRow children collapsedPids process depth).collapsed then []
      else children process.pid := by
  unfold shownChildren enteredRow
  by_cases hnone : children process.pid = []
  · rw [hnone, ite_self, ite_self]
  · by_cases hpid : process.pid ∈ collapsedPids <;> simp [hnone, hpid]

/-- With as much fuel below a process as there are pids left, the walk is the recursion. -/
theorem dfs_follows (hchildren : ∀ pid, ∀ child ∈ children pid, child.pid ∈ pids) (fuel : ℕ) :
    ∀ depth, Follows children collapsedPids pids fuel depth
      fun walk process => dfs children collapsedPids (fuel + 1) process depth walk := by
  induction fuel with
  | zero =>
    intro depth walk out process hlists hmem hleft
    have hseen : process.pid ∈ walk.visited := by
      by_contra hnew
      have hpos := Finset.card_pos.mpr ⟨_, Finset.mem_sdiff.mpr ⟨hmem, hnew⟩⟩
      omega
    dsimp only
    rw [dfs_seen hseen]
    exact ⟨out, .skip ((hlists.visited _).mp hseen) (.nil _ _), hlists⟩
  | succ fuel ih =>
    intro depth walk out process hlists hmem hleft
    dsimp only
    by_cases hseen : process.pid ∈ walk.visited
    · rw [dfs_seen hseen]
      exact ⟨out, .skip ((hlists.visited _).mp hseen) (.nil _ _), hlists⟩
    · have hnew : ∀ row ∈ out, row.1.pid ≠ process.pid := fun row hrow hpid =>
        hseen ((hlists.visited _).mpr ⟨row, hrow, hpid⟩)
      have hentered := hlists.enter (enteredRow children collapsedPids process depth)
      have hshown : shownChildren children collapsedPids process =
          if (enteredRow children collapsedPids process depth).collapsed then []
          else children process.pid := shownChildren_eq process depth
      rw [dfs_new hseen]
      dsimp only
      split
      · next hcollapsed =>
        rw [if_pos hcollapsed] at hshown
        refine ⟨_, .visit hnew ?_ (.nil _ _), hentered⟩
        rw [hshown]
        exact .nil _ _
      · next hcollapsed =>
        rw [if_neg hcollapsed] at hshown
        obtain ⟨out', hbelow, hout'⟩ := (ih (depth + 1)).foldl (hchildren process.pid) hentered
          (TreeWalk.left_enter hmem hseen hleft)
        refine ⟨out', .visit hnew ?_ (.nil _ _), hout'⟩
        rw [hshown]
        exact hbelow

end Walk

/-! ## The rows -/

section Rows
variable {σ : StdSort} {snapshot : SystemSnapshot} {state : UiState}

theorem mem_childrenOf {filtered : List ProcessSnapshot} {pid : ℤ} {child : ProcessSnapshot} :
    child ∈ childrenOf σ state filtered pid ↔ child ∈ filtered ∧ child.parentPid = pid := by
  unfold childrenOf
  rw [(σ.perm _ _).mem_iff, List.mem_filter, decide_eq_true_eq]

theorem mem_shownChildren {filtered : List ProcessSnapshot} {collapsedPids : Finset ℤ}
    {process child : ProcessSnapshot}
    (h : child ∈ shownChildren (childrenOf σ state filtered) collapsedPids process) :
    child ∈ filtered ∧ child.parentPid = process.pid := by
  unfold shownChildren at h
  split at h
  · exact absurd h List.not_mem_nil
  · exact mem_childrenOf.mp h

theorem treeRoots_subset {filtered : List ProcessSnapshot} :
    ∀ root ∈ treeRoots σ state filtered, root ∈ filtered :=
  fun _ h => List.mem_of_mem_filter ((σ.perm _ _).mem_iff.mp h)

/-- What the tree view shows is what the unbounded recursion lists, from the roots and then from
every process. -/
theorem treeRows_depthFirst (σ : StdSort) (snapshot : SystemSnapshot) (state : UiState)
    (htree : state.treeMode = true) :
    DepthFirstTree (childrenOf σ state (filteredProcesses snapshot state)) state.collapsedPids 0
      (treeRoots σ state (filteredProcesses snapshot state) ++ filteredProcesses snapshot state) []
      ((buildProcessRows σ snapshot state).map (·.entry)) := by
  let filtered := filteredProcesses snapshot state
  let pids : Finset ℤ := (filtered.map (·.pid)).toFinset
  have hmem : ∀ process ∈ filtered, process.pid ∈ pids := fun process h =>
    List.mem_toFinset.mpr (List.mem_map_of_mem h)
  have hfollows : Follows (childrenOf σ state filtered) state.collapsedPids pids filtered.length 0
      fun walk process => dfs (childrenOf σ state filtered) state.collapsedPids
        (filtered.length + 1) process 0 walk :=
    dfs_follows (fun _ child h => hmem child (mem_childrenOf.mp h).1) filtered.length 0
  have hleft : (pids \ ({} : TreeWalk).visited).card ≤ filtered.length := by
    refine (Finset.card_le_card Finset.sdiff_subset).trans ?_
    refine (List.toFinset_card_le _).trans ?_
    rw [List.length_map]
  have hstart : TreeWalk.Lists {} [] := ⟨rfl, fun pid => by simp⟩
  have hstarted : ∀ process ∈ treeRoots σ state filtered ++ filtered, process.pid ∈ pids :=
    fun process h => hmem process ((List.mem_append.mp h).elim (treeRoots_subset process) id)
  obtain ⟨out, hrun, hout⟩ := hfollows.foldl hstarted hstart hleft
  have hrows : (buildProcessRows σ snapshot state).map (·.entry) = out := by
    rw [← hout.rows, List.foldl_append]
    unfold buildProcessRows
    rw [htree]
    rfl
  rw [hrows]
  exact hrun

/-- No process is lost, none is listed twice. -/
theorem treeRows_perm (σ : StdSort) (hpids : (snapshot.processes.map (·.pid)).Nodup)
    (htree : state.treeMode = true) :
    ((buildProcessRows σ snapshot state).map (·.process)).Perm (filteredProcesses snapshot state) := by
  have hrun := treeRows_depthFirst σ snapshot state htree
  have hentries : (buildProcessRows σ snapshot state).map (·.process) =
      ((buildProcessRows σ snapshot state).map (·.entry)).map Prod.fst := by
    rw [List.map_map]
    rfl
  have hkeys := hrun.nodup List.nodup_nil
  rw [List.map_map] at hkeys
  have hnodup : ((buildProcessRows σ snapshot state).map (·.process)).Nodup :=
    List.Nodup.of_map (·.pid) (by rwa [List.map_map])
  have hfrom := hrun.origin (P := (· ∈ filteredProcesses snapshot state))
    (fun _ _ child h => (mem_shownChildren h).1)
    fun process h => (List.mem_append.mp h).elim (treeRoots_subset process) id
  have hfiltered : (filteredProcesses snapshot state).Nodup :=
    (List.Nodup.of_map _ hpids).filter _
  rw [hentries] at hnodup ⊢
  refine (List.perm_ext_iff_of_nodup hnodup hfiltered).mpr fun process => ⟨fun h => ?_, fun h => ?_⟩
  · obtain ⟨row, hrow, rfl⟩ := List.mem_map.mp h
    exact (hfrom row hrow).resolve_left List.not_mem_nil
  · obtain ⟨row, hrow, hpid⟩ := hrun.seen process (List.mem_append_right _ h)
    have hsame : row.1 = process := eq_of_pid hpids
      (filteredProcesses_subset _ ((hfrom row hrow).resolve_left List.not_mem_nil))
      (filteredProcesses_subset _ h) hpid
    exact List.mem_map.mpr ⟨row, hrow, hsame⟩

/-- The nearest row above that is one level less deep. -/
def parentRow (before : List ProcessRow) (depth : ℕ) : Option ProcessRow :=
  before.reverse.find? fun row => row.depth + 1 = depth

/-- The rows directly beneath a row: one level deeper, up to the next row that is not deeper. -/
def rowsBeneath (row : ProcessRow) (after : List ProcessRow) : List ProcessRow :=
  (after.takeWhile fun other => row.depth < other.depth).filter fun other =>
    other.depth = row.depth + 1

theorem parentOf_entries (before : List ProcessRow) (depth : ℕ) :
    Forest.parentOf (before.map (·.entry)) depth = (parentRow before depth).map (·.entry) := by
  unfold Forest.parentOf parentRow
  rw [← List.map_reverse, List.find?_map]
  rfl

theorem beneath_entries (row : ProcessRow) (after : List ProcessRow) :
    Forest.beneath row.entry (after.map (·.entry)) = (rowsBeneath row after).map (·.entry) := by
  unfold Forest.beneath rowsBeneath
  rw [List.takeWhile_map, List.filter_map]
  rfl

/-- What the tree view promises. -/
structure TreeTable (σ : StdSort) (snapshot : SystemSnapshot) (state : UiState) : Prop where
  /-- The recursion without a bound on its depth ends with these rows. -/
  ends : DepthFirstTree (childrenOf σ state (filteredProcesses snapshot state)) state.collapsedPids 0
    (treeRoots σ state (filteredProcesses snapshot state) ++ filteredProcesses snapshot state) []
    ((buildProcessRows σ snapshot state).map (·.entry))
  complete : ((buildProcessRows σ snapshot state).map (·.process)).Perm
    ((buildProcessRows σ snapshot { state with treeMode := false }).map (·.process))
  parent : ∀ before row after, buildProcessRows σ snapshot state = before ++ row :: after →
    0 < row.depth → ∃ parent, parentRow before row.depth = some parent ∧
      parent.process.pid = row.process.parentPid
  /-- A column with numbers puts the rows beneath one row in its order. -/
  ordered : (∀ process ∈ filteredProcesses snapshot state, process.NumericIn state.sort) →
    ∀ before row after, buildProcessRows σ snapshot state = before ++ row :: after →
      (rowsBeneath row after).Pairwise fun a b => rowLess state b.process a.process = false

theorem childrenOf_sorted {filtered : List ProcessSnapshot}
    (h : ∀ process ∈ filtered, process.NumericIn state.sort) (pid : ℤ) :
    (childrenOf σ state filtered pid).Pairwise fun a b => rowLess state b a = false :=
  σ.sortedOn _ _ (rowLess_strictWeakOn fun process hp => h process (List.mem_of_mem_filter hp))

/-- Whatever the parent links look like, the tree view lists every matching process once, each below
its parent or at the left edge, and the children of a row in the order of the table where that column
holds numbers. -/
theorem tree_rows_faithful (σ : StdSort) (snapshot : SystemSnapshot) (state : UiState)
    (hpids : (snapshot.processes.map (·.pid)).Nodup) (htree : state.treeMode = true) :
    TreeTable σ snapshot state := by
  have hrun := treeRows_depthFirst σ snapshot state htree
  obtain ⟨rows, hrows, hforest⟩ := hrun.forest
  rw [List.nil_append] at hrows
  refine ⟨hrun, ?_, fun before row after hsplit hdepth => ?_, fun hnumeric before row after hsplit => ?_⟩
  · refine (treeRows_perm σ hpids htree).trans ?_
    have hflat : (buildProcessRows σ snapshot { state with treeMode := false }).map (·.process) =
        σ.sort (rowLess state) (filteredProcesses snapshot state) := by
      show ((σ.sort (rowLess state) (filteredProcesses snapshot state)).map
        fun process => ({ process } : ProcessRow)).map (·.process) = _
      rw [List.map_map]
      exact List.map_id _
    rw [hflat]
    exact (σ.perm _ _).symm
  · rw [hsplit, List.map_append, List.map_cons] at hrows
    rcases hforest.parent hrows.symm with ⟨hzero, -⟩ | ⟨parent, hparent, hmem⟩
    · exact absurd hzero hdepth.ne'
    · rw [parentOf_entries] at hparent
      obtain ⟨found, hfound, rfl⟩ := Option.map_eq_some_iff.mp hparent
      exact ⟨found, hfound, (mem_shownChildren hmem).2.symm⟩
  · rw [hsplit, List.map_append, List.map_cons] at hrows
    have hsub := hforest.beneath_sublist hrows.symm
    rw [beneath_entries, List.map_map] at hsub
    have hshown : (shownChildren (childrenOf σ state (filteredProcesses snapshot state))
        state.collapsedPids row.process).Pairwise fun a b => rowLess state b a = false := by
      unfold shownChildren
      split
      · exact .nil
      · exact childrenOf_sorted hnumeric _
    exact List.pairwise_map.mp (hshown.sublist hsub)

end Rows

/-- Two processes that are each other's parents, and one that is its own. -/
def tangledSnapshot : SystemSnapshot where
  processes := [{ pid := 1, parentPid := 2 }, { pid := 2, parentPid := 1 },
    { pid := 3, parentPid := 3 }]

theorem tree_rows_tangled : TreeTable .insertion tangledSnapshot { treeMode := true } :=
  tree_rows_faithful _ _ _ (by decide) rfl

/-- Three siblings against their order, one of them without a number. -/
def siblingSnapshot : SystemSnapshot where
  processes := [{ pid := 9 }, { pid := 1, parentPid := 9, cpuPercent := Double.ofNat 1 },
    { pid := 2, parentPid := 9, cpuPercent := .nan },
    { pid := 3, parentPid := 9, cpuPercent := Double.ofNat 2 }]

/-- A sort may leave siblings out of order around a percentage that is not a number. -/
theorem nan_sibling_splits_the_order :
    ¬ ∀ (σ : StdSort) (snapshot : SystemSnapshot) (state : UiState),
      (snapshot.processes.map (·.pid)).Nodup → state.treeMode = true → state.collapsedPids = ∅ →
        ∀ before row after, buildProcessRows σ snapshot state = before ++ row :: after →
          (rowsBeneath row after).Pairwise fun a b => rowLess state b.process a.process = false := by
  intro h
  have hrows : buildProcessRows .insertion siblingSnapshot { treeMode := true } ≠ [] := by
    refine fun hnil => absurd (congrArg List.length hnil) ?_
    decide
  have hsiblings := h .insertion siblingSnapshot { treeMode := true } (by decide) rfl rfl []
    (List.head _ hrows) (List.tail _) (List.cons_head_tail hrows).symm
  revert hsiblings
  decide +revert

end Mtop
