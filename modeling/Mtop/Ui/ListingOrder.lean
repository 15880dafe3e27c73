import Mtop.Model.WorkloadTotals
import Mtop.Ui.LoopSteps
import Mtop.Ui.TreeCollapse

/-! The sampler lists the processes by their CPU use of the moment, equal ones in any order. The rows
that the interface shows and what it does depend on which processes there are, not on how they are
listed; the workloads of the Alpha view and the risk computed from them may depend on it. -/
namespace Mtop
open Cxx
set_option autoImplicit false

/-! ## The tree -/

/-- The condition under which `build_process_rows` starts a tree at a process. -/
def isTreeRoot (filtered : List ProcessSnapshot) (process : ProcessSnapshot) : Bool :=
  process.parentPid ≤ 0 || process.parentPid = process.pid ||
    filtered.all fun other => other.pid ≠ process.parentPid

/-- The chain of parents of a process ends at a root. -/
inductive Rooted (filtered : List ProcessSnapshot) : ProcessSnapshot → Prop
  | root {process : ProcessSnapshot} (hmem : process ∈ filtered)
      (h : isTreeRoot filtered process = true) : Rooted filtered process
  | child {parent child : ProcessSnapshot} (hlink : ParentIn filtered parent child)
      (h : Rooted filtered parent) : Rooted filtered child

/-- The walk from the roots comes to every process: no parent links in a circle, and nothing collapsed
that has children. -/
structure WalkComplete (filtered : List ProcessSnapshot) (collapsedPids : Finset ℤ) : Prop where
  rooted : ∀ process ∈ filtered, Rooted filtered process
  expanded : ∀ parent child, ParentIn filtered parent child → parent.pid ∉ collapsedPids

/-- A listing that has one table: its order is decided, and so is its tree if there is one. -/
structure Ordered (snapshot : SystemSnapshot) (state : UiState) : Prop where
  listed : snapshot.Listed
  tree : state.treeMode = true →
    WalkComplete (filteredProcesses snapshot state) state.collapsedPids

section Tree
variable {σ τ : StdSort} {snapshot snapshot' : SystemSnapshot} {state : UiState}

theorem treeRoots_eq (filtered : List ProcessSnapshot) :
    treeRoots σ state filtered = σ.sort (rowLess state) (filtered.filter (isTreeRoot filtered)) :=
  rfl

theorem isTreeRoot_perm {filtered filtered' : List ProcessSnapshot} (h : filtered.Perm filtered') :
    isTreeRoot filtered = isTreeRoot filtered' := by
  funext process
  unfold isTreeRoot
  rw [h.all_eq]

/-- Any part of the table is sorted in one way. -/
theorem sort_part (h : snapshot.Listed) {part part' : List ProcessSnapshot}
    (hsub : ∀ process ∈ part, process ∈ filteredProcesses snapshot state) (hperm : part.Perm part') :
    σ.sort (rowLess state) part = τ.sort (rowLess state) part' := by
  have hnumeric : ∀ process ∈ filteredProcesses snapshot state, process.NumericIn state.sort :=
    fun process hp => (h.numeric process (filteredProcesses_subset _ hp)).inMode _
  refine σ.sort_eq_of_perm τ (rowLess_strictWeakOn fun process hp => hnumeric _ (hsub _ hp)) hperm
    fun a ha b hb => rowLess_separates h.pids hnumeric a (hsub a ha) b (hsub b hb)

theorem childrenOf_perm (h : snapshot.Listed)
    (hperm : snapshot.processes.Perm snapshot'.processes) :
    childrenOf σ state (filteredProcesses snapshot state) =
      childrenOf τ state (filteredProcesses snapshot' state) :=
  funext fun _ => sort_part h (fun _ => List.mem_of_mem_filter) ((hperm.filter _).filter _)

theorem filteredProcesses_perm (hperm : snapshot.processes.Perm snapshot'.processes) :
    (filteredProcesses snapshot state).Perm (filteredProcesses snapshot' state) :=
  hperm.filter _

theorem treeRoots_perm (h : snapshot.Listed)
    (hperm : snapshot.processes.Perm snapshot'.processes) :
    treeRoots σ state (filteredProcesses snapshot state) =
      treeRoots τ state (filteredProcesses snapshot' state) := by
  rw [treeRoots_eq, treeRoots_eq, isTreeRoot_perm (filteredProcesses_perm hperm)]
  exact sort_part h (fun _ => List.mem_of_mem_filter) ((hperm.filter _).filter _)

/-- The walk over a list from a walk. -/
def walkOver (σ : StdSort) (snapshot : SystemSnapshot) (state : UiState)
    (processes : List ProcessSnapshot) (walk : TreeWalk) : TreeWalk :=
  processes.foldl (fun walk process =>
    dfs (childrenOf σ state (filteredProcesses snapshot state)) state.collapsedPids
      ((filteredProcesses snapshot state).length + 1) process 0 walk) walk

theorem treeRows_walk (htree : state.treeMode = true) :
    buildProcessRows σ snapshot state =
      (walkOver σ snapshot state (filteredProcesses snapshot state)
        (walkOver σ snapshot state (treeRoots σ state (filteredProcesses snapshot state)) {})).rows := by
  unfold buildProcessRows
  rw [htree]
  rfl

/-- Processes that have been visited are passed over. -/
theorem walkOver_visited {processes : List ProcessSnapshot} {walk : TreeWalk}
    (h : ∀ process ∈ processes, process.pid ∈ walk.visited) :
    walkOver σ snapshot state processes walk = walk := by
  induction processes with
  | nil => rfl
  | cons process processes ih =>
    have hseen : walkOver σ snapshot state (process :: processes) walk =
        walkOver σ snapshot state processes walk :=
      congrArg (walkOver σ snapshot state processes) (dfs_seen (h process List.mem_cons_self) _)
    rw [hseen]
    exact ih fun process hp => h process (List.mem_cons_of_mem _ hp)

/-- From the roots the walk visits every process. -/
theorem walkOver_roots (hpids : (snapshot.processes.map (·.pid)).Nodup)
    (h : WalkComplete (filteredProcesses snapshot state) state.collapsedPids) :
    ∀ process ∈ filteredProcesses snapshot state, process.pid ∈
      (walkOver σ snapshot state (treeRoots σ state (filteredProcesses snapshot state)) {}).visited := by
  let filtered := filteredProcesses snapshot state
  let pids : Finset ℤ := (filtered.map (·.pid)).toFinset
  have hmem : ∀ process ∈ filtered, process.pid ∈ pids := fun process hp =>
    List.mem_toFinset.mpr (List.mem_map_of_mem hp)
  have hfollows : Follows (childrenOf σ state filtered) state.collapsedPids pids filtered.length 0
      fun walk process => dfs (childrenOf σ state filtered) state.collapsedPids
        (filtered.length + 1) process 0 walk :=
    dfs_follows (fun _ child hc => hmem child (mem_childrenOf.mp hc).1) filtered.length 0
  have hleft : (pids \ ({} : TreeWalk).visited).card ≤ filtered.length := by
    refine (Finset.card_le_card Finset.sdiff_subset).trans ?_
    refine (List.toFinset_card_le _).trans ?_
    rw [List.length_map]
  have hstart : TreeWalk.Lists {} [] := ⟨rfl, fun pid => by simp⟩
  obtain ⟨out, hrun, hout⟩ := hfollows.foldl
    (fun process hp => hmem process (treeRoots_subset process hp)) hstart hleft
  have hvisited : ∀ process : ProcessSnapshot, (∃ row ∈ out, row.1.pid = process.pid) → process.pid ∈
      (walkOver σ snapshot state (treeRoots σ state filtered) {}).visited :=
    fun process hrow => (hout.visited process.pid).mpr hrow
  have horigin := hrun.origin (P := (· ∈ filtered))
    (fun _ _ child hchild => (mem_shownChildren hchild).1) treeRoots_subset
  intro process hprocess
  refine hvisited process ?_
  -- along the chain of parents, from the root down
  induction h.rooted process hprocess with
  | root hmem hroot =>
    refine hrun.seen _ ?_
    rw [treeRoots_eq]
    exact (σ.perm _ _).mem_iff.mpr (List.mem_filter.mpr ⟨hmem, hroot⟩)
  | @child parent child hlink _ ih =>
    obtain ⟨row, hrow, hpid⟩ := ih hlink.1
    have hfiltered : row.1 ∈ filtered := (horigin row hrow).resolve_left List.not_mem_nil
    have hparent : row.1 = parent := eq_of_pid hpids (filteredProcesses_subset _ hfiltered)
      (filteredProcesses_subset _ hlink.1) hpid
    refine (hrun.closed row hrow).resolve_left List.not_mem_nil child ?_
    rw [hparent]
    unfold shownChildren
    rw [if_neg (h.expanded parent child hlink)]
    exact mem_childrenOf.mpr hlink.2

/-- Under a complete walk, tree rows of one set of processes are one table. -/
theorem treeRows_eq (htree : state.treeMode = true) (h : Ordered snapshot state)
    (hperm : snapshot.processes.Perm snapshot'.processes) :
    buildProcessRows σ snapshot state = buildProcessRows τ snapshot' state := by
  have hfiltered : (filteredProcesses snapshot state).Perm (filteredProcesses snapshot' state) :=
    filteredProcesses_perm hperm
  have hwalk : walkOver σ snapshot state = walkOver τ snapshot' state := by
    funext processes walk
    unfold walkOver
    rw [childrenOf_perm (σ := σ) (τ := τ) h.listed hperm, hfiltered.length_eq]
  have hvisited := walkOver_roots (σ := σ) h.listed.pids (h.tree htree)
  have hvisited' := fun process hp => hvisited process (hfiltered.mem_iff.mpr hp)
  rw [treeRows_walk htree, treeRows_walk htree, walkOver_visited hvisited]
  rw [hwalk, treeRoots_perm (σ := σ) (τ := τ) h.listed hperm] at hvisited' ⊢
  rw [walkOver_visited hvisited']

theorem frameRows_eq (h : Ordered snapshot state)
    (hperm : snapshot.processes.Perm snapshot'.processes) :
    frameRows σ snapshot state = frameRows τ snapshot' state := by
  unfold frameRows
  split
  · unfold buildGpuActiveRows
    dsimp only
    have hsub : ∀ process ∈ snapshot.processes.filter (fun process =>
        process.gpuActive && processMatchesQuery process state.filter),
          process ∈ filteredProcesses snapshot state := fun process hp => by
      obtain ⟨hprocess, hkeep⟩ := List.mem_filter.mp hp
      exact List.mem_filter.mpr ⟨hprocess, (Bool.and_eq_true_iff.mp hkeep).2⟩
    rw [sort_part (σ := σ) (τ := τ) h.listed hsub (hperm.filter _)]
  · cases htree : state.treeMode with
    | false => exact flatRows_eq σ τ htree h.listed hperm
    | true => exact treeRows_eq htree h hperm

end Tree
/-! ## The Alpha rows -/

/-- Processes with AI signals first. -/
def aiFirst (lhs rhs : AiProcessRow) : Bool := lhs.isAi && !rhs.isAi

/-- The memory a row is sorted by: only that of AI processes counts. -/
def aiBytes (row : AiProcessRow) : UInt64 := if row.isAi then row.process.residentBytes else 0

theorem strictWeak_aiFirst : StrictWeak aiFirst :=
  have h : StrictWeak fun a b : Bool => a && !b := ⟨by decide, by decide⟩
  h.comap AiProcessRow.isAi

theorem strictWeak_uint64 : StrictWeak fun a b : UInt64 => decide (a < b) :=
  have h : StrictWeak fun a b : ℕ => decide (a < b) := StrictWeak.of_linear
  h.comap UInt64.toNat

theorem strictWeak_pid : StrictWeak fun a b : AiProcessRow => decide (a.process.pid < b.process.pid) :=
  have h : StrictWeak fun a b : ℤ => decide (a < b) := StrictWeak.of_linear
  h.comap fun row : AiProcessRow => row.process.pid

/-- Where the second comparison decides, so do both together. -/
theorem lex_total {p q r r' : Bool} (h : r = true ∨ r' = true) :
    (p || (!q && r)) = true ∨ (q || (!p && r')) = true := by
  cases p <;> cases q <;> simp [h]

/-- Rows whose CPU percentage is a number. -/
def AiProcessRow.Numeric (row : AiProcessRow) : Prop := row.process.cpuPercent ≠ .nan

section Alpha

/-- The descending order, level by level. -/
def aiLevels (a b : AiProcessRow) : Bool :=
  aiFirst a b || (!aiFirst b a &&
    (decide (aiBytes b < aiBytes a) || (!decide (aiBytes a < aiBytes b) &&
      (Double.lt b.process.cpuPercent a.process.cpuPercent ||
        (!Double.lt a.process.cpuPercent b.process.cpuPercent &&
          decide (a.process.pid < b.process.pid))))))

theorem aiRowLess_eq {a b : AiProcessRow} (ha : a.Numeric) (hb : b.Numeric) :
    aiRowLess a b = aiLevels a b := by
  have hcpu : (if (!Double.eq a.process.cpuPercent b.process.cpuPercent) = true then
      Double.lt b.process.cpuPercent a.process.cpuPercent
      else decide (a.process.pid < b.process.pid)) =
        (Double.lt b.process.cpuPercent a.process.cpuPercent ||
          (!Double.lt a.process.cpuPercent b.process.cpuPercent &&
            decide (a.process.pid < b.process.pid))) := by
    rw [Double.eq_eq_not_lt ha hb]
    cases Double.lt a.process.cpuPercent b.process.cpuPercent <;>
      cases Double.lt b.process.cpuPercent a.process.cpuPercent <;> simp
  unfold aiRowLess aiLevels aiFirst aiBytes
  rw [← hcpu]
  cases hai : a.isAi <;> cases hbi : b.isAi
  · simp
  · simp
  · simp
  · rcases lt_trichotomy a.process.residentBytes.toNat b.process.residentBytes.toNat with h | h | h
    · simp [UInt64.lt_iff_toNat_lt, ← UInt64.toNat_inj, h, h.ne, h.not_gt]
    · simp [UInt64.lt_iff_toNat_lt, ← UInt64.toNat_inj, h]
    · simp [UInt64.lt_iff_toNat_lt, ← UInt64.toNat_inj, h, h.ne']

/-- The ascending order, level by level. -/
def alphaLevels (a b : AiProcessRow) : Bool :=
  aiFirst a b || (!aiFirst b a &&
    (decide (a.process.residentBytes < b.process.residentBytes) ||
      (!decide (b.process.residentBytes < a.process.residentBytes) &&
        decide (a.process.pid < b.process.pid))))

theorem alphaRowLess_eq (a b : AiProcessRow) : alphaRowLess a b = alphaLevels a b := by
  unfold alphaRowLess alphaLevels aiFirst
  rcases lt_trichotomy a.process.residentBytes.toNat b.process.residentBytes.toNat with h | h | h
  · cases a.isAi <;> cases b.isAi <;>
      simp [UInt64.lt_iff_toNat_lt, ← UInt64.toNat_inj, h, h.ne, h.not_gt]
  · cases a.isAi <;> cases b.isAi <;> simp [UInt64.lt_iff_toNat_lt, ← UInt64.toNat_inj, h]
  · cases a.isAi <;> cases b.isAi <;>
      simp [UInt64.lt_iff_toNat_lt, ← UInt64.toNat_inj, h, h.not_gt, h.ne']

theorem pid_total {a b : AiProcessRow} (h : a.process.pid ≠ b.process.pid) :
    decide (a.process.pid < b.process.pid) = true ∨
      decide (b.process.pid < a.process.pid) = true := by
  simpa only [decide_eq_true_eq] using lt_or_gt_of_ne h

theorem aiRowLess_strictWeakOn : StrictWeakOn aiRowLess AiProcessRow.Numeric := by
  have hcpu : StrictWeak fun a b : Subtype AiProcessRow.Numeric =>
      Double.lt b.val.process.cpuPercent a.val.process.cpuPercent :=
    (decides_double.strictWeak.comap fun row : Subtype AiProcessRow.Numeric =>
      (⟨row.val.process.cpuPercent, row.2⟩ : Subtype fun d : Double => d ≠ .nan)).flip
  have hlevels := (strictWeak_aiFirst.comap Subtype.val).lex
    ((strictWeak_uint64.flip.comap fun row : Subtype AiProcessRow.Numeric => aiBytes row.val).lex
      (hcpu.lex (strictWeak_pid.comap Subtype.val)))
  unfold StrictWeakOn
  have hless : (fun a b : Subtype AiProcessRow.Numeric => aiRowLess a b) =
      fun a b : Subtype AiProcessRow.Numeric => aiLevels a b :=
    funext fun a => funext fun b => aiRowLess_eq a.2 b.2
  rw [hless]
  exact hlevels

theorem alphaRowLess_strictWeak : StrictWeak alphaRowLess := by
  have hbytes : StrictWeak fun a b : AiProcessRow =>
      decide (a.process.residentBytes < b.process.residentBytes) :=
    strictWeak_uint64.comap fun row : AiProcessRow => row.process.residentBytes
  have hless : alphaRowLess = alphaLevels := funext fun a => funext fun b => alphaRowLess_eq a b
  rw [hless]
  exact strictWeak_aiFirst.lex (hbytes.lex strictWeak_pid)

/-- Rows of different processes are never equivalent. -/
theorem aiRowLess_total {a b : AiProcessRow} (ha : a.Numeric) (hb : b.Numeric)
    (h : a.process.pid ≠ b.process.pid) : aiRowLess a b = true ∨ aiRowLess b a = true := by
  rw [aiRowLess_eq ha hb, aiRowLess_eq hb ha]
  exact lex_total (lex_total (lex_total (pid_total h)))

theorem alphaRowLess_total {a b : AiProcessRow} (h : a.process.pid ≠ b.process.pid) :
    alphaRowLess a b = true ∨ alphaRowLess b a = true := by
  rw [alphaRowLess_eq, alphaRowLess_eq]
  exact lex_total (lex_total (pid_total h))

variable {σ τ : StdSort} {snapshot snapshot' : SystemSnapshot} {state : UiState}

/-- The rows that are sorted are as different as their processes. -/
theorem aiRow_eq_of_pid (h : snapshot.Listed) {a b : AiProcessRow}
    (ha : a ∈ snapshot.processes.map aiProcessRow) (hb : b ∈ snapshot.processes.map aiProcessRow)
    (hpid : a.process.pid = b.process.pid) : a = b := by
  obtain ⟨process, hprocess, rfl⟩ := List.mem_map.mp ha
  obtain ⟨other, hother, rfl⟩ := List.mem_map.mp hb
  rw [aiProcessRow_process, aiProcessRow_process] at hpid
  rw [eq_of_pid h.pids hprocess hother hpid]

theorem aiRow_numeric (h : snapshot.Listed) :
    ∀ row ∈ snapshot.processes.map aiProcessRow, row.Numeric := by
  intro row hrow
  obtain ⟨process, hprocess, rfl⟩ := List.mem_map.mp hrow
  unfold AiProcessRow.Numeric
  rw [aiProcessRow_process]
  exact (h.numeric process hprocess).1

theorem buildAiProcessRows_eq (h : snapshot.Listed)
    (hperm : snapshot.processes.Perm snapshot'.processes) :
    buildAiProcessRows σ snapshot = buildAiProcessRows τ snapshot' := by
  refine σ.sort_eq_of_perm τ (aiRowLess_strictWeakOn.mono (aiRow_numeric h)) (hperm.map _) ?_
  intro a ha b hb hab hba
  by_contra hne
  have hpid : a.process.pid ≠ b.process.pid := fun hpid => hne (aiRow_eq_of_pid h ha hb hpid)
  rcases aiRowLess_total (aiRow_numeric h a ha) (aiRow_numeric h b hb) hpid with hless | hless
  · exact Bool.noConfusion (hab.symm.trans hless)
  · exact Bool.noConfusion (hba.symm.trans hless)

/-- The ascending order has one result, too. -/
theorem alphaSort_eq (h : snapshot.Listed) {rows : List AiProcessRow}
    (hsub : ∀ row ∈ rows, row ∈ buildAiProcessRows σ snapshot) :
    σ.sort alphaRowLess rows = τ.sort alphaRowLess rows := by
  refine σ.sort_eq_of_perm τ (alphaRowLess_strictWeak.comap _) (.refl rows) ?_
  intro a ha b hb hab hba
  have hlisted : ∀ row ∈ rows, row ∈ snapshot.processes.map aiProcessRow := fun row hrow =>
    (σ.perm _ _).mem_iff.mp (hsub row hrow)
  by_contra hne
  have hpid : a.process.pid ≠ b.process.pid := fun hpid =>
    hne (aiRow_eq_of_pid h (hlisted a ha) (hlisted b hb) hpid)
  rcases alphaRowLess_total hpid with hless | hless
  · exact Bool.noConfusion (hab.symm.trans hless)
  · exact Bool.noConfusion (hba.symm.trans hless)

/-- The rows of the Alpha list are one list, whatever the history. -/
theorem alphaRows_eq (h : snapshot.Listed) (hperm : snapshot.processes.Perm snapshot'.processes)
    (history history' : List SystemSnapshot) :
    (buildAlphaModel σ snapshot history state).processRows =
      (buildAlphaModel τ snapshot' history' state).processRows := by
  unfold buildAlphaModel
  dsimp only
  rw [← buildAiProcessRows_eq (σ := σ) (τ := τ) h hperm]
  split
  · refine alphaSort_eq h fun row hrow => ?_
    split at hrow
    · exact hrow
    · exact List.mem_of_mem_filter hrow
  · rfl

end Alpha

/-! ## Runs -/

/-- Two models with the same list of processes. -/
def AlphaModel.SameRows (alpha alpha' : AlphaModel) : Prop := alpha.processRows = alpha'.processRows

/-- Two frames with the same rows, which answer inputs alike. The workloads and the risk verdict of the
Alpha view are not compared. -/
structure Frame.Same (frame frame' : Frame) : Prop where
  layout : frame.layout = frame'.layout
  shown : frame.shown = frame'.shown
  alpha : frame.alpha.SameRows frame'.alpha
  rows : frame.rows = frame'.rows
  metrics : frame.metrics = frame'.metrics
  drawn : frame.drawn = frame'.drawn

/-- Two interfaces in the same state that show the same rows. -/
structure Ui.Same (ui ui' : Ui) : Prop where
  config : ui.config = ui'.config
  state : ui.state = ui'.state
  frame : Option.Rel Frame.Same ui.frame ui'.frame
  polls : ui.polls = ui'.polls
  running : ui.running = ui'.running

/-- The same input, or a frame with the same processes. -/
inductive SameMove : Move → Move → Prop
  | input (event : InputEvent) (env : InputEnv) : SameMove (.input event env) (.input event env)
  | frame {snapshot snapshot' : SystemSnapshot}
      (hperm : snapshot.processes.Perm snapshot'.processes) (rows cols : ℤ) (now : ℕ) :
      SameMove (.frame snapshot rows cols now) (.frame snapshot' rows cols now)

/-- Every sample of a run is a listing that has one table in the state it is shown in. -/
def OrderedMove (ui : Ui) : Move → Prop
  | .input .. => True
  | .frame snapshot .. => Ordered snapshot ui.state

section Same
variable {alpha alpha' : AlphaModel} (h : alpha.SameRows alpha')
include h

theorem applyAlphaSearchRequest_same (state : UiState) (now : ℕ) :
    state.applyAlphaSearchRequest now alpha = state.applyAlphaSearchRequest now alpha' := by
  unfold UiState.applyAlphaSearchRequest
  rw [show alpha.processRows = alpha'.processRows from h]

theorem drawProcessWindow_same (layout : WindowLayout) (state : UiState) (rows : List ProcessRow)
    (metrics : ProcessViewMetrics) :
    drawProcessWindow layout state alpha rows metrics =
      drawProcessWindow layout state alpha' rows metrics := by
  unfold drawProcessWindow drawAlphaWorkloadsView alphaPids
  rw [show alpha.processRows = alpha'.processRows from h]

theorem drawPopups_same (state : UiState) (rows : List ProcessRow) :
    drawPopups state alpha rows = drawPopups state alpha' rows := by
  unfold drawPopups
  rw [show alpha.processRows = alpha'.processRows from h]

theorem handleInput_same (env : InputEnv) (config : AppConfig) (state : UiState)
    (rows : List ProcessRow) (metrics : ProcessViewMetrics) (ch : ℤ) :
    handleInput env config state alpha rows metrics ch =
      handleInput env config state alpha' rows metrics ch := by
  obtain ⟨workloads, processRows, risk⟩ := alpha
  obtain ⟨workloads', processRows', risk'⟩ := alpha'
  obtain rfl : processRows = processRows' := h
  rfl

end Same

theorem processInput_same {ui ui' : Ui} {frame frame' : Frame} (hconfig : ui.config = ui'.config)
    (hstate : ui.state = ui'.state) (h : frame.Same frame') (event : InputEvent) (env : InputEnv) :
    processInput ui frame event env = processInput ui' frame' event env := by
  unfold processInput translateEvent
  rw [hconfig, hstate, h.layout, h.rows, h.metrics]
  split
  split
  · rfl
  · exact handleInput_same h.alpha env _ _ _ _ _

section Frame
variable {σ τ : StdSort} {snapshot snapshot' : SystemSnapshot}

/-- A pending search leaves the table as it is. -/
theorem Ordered.afterSearch {state : UiState} (h : Ordered snapshot state) (now : ℕ)
    (alpha : AlphaModel) : Ordered snapshot (state.applyAlphaSearchRequest now alpha) := by
  have hsame : (state.applyAlphaSearchRequest now alpha).treeMode = state.treeMode ∧
      (state.applyAlphaSearchRequest now alpha).filter = state.filter ∧
      (state.applyAlphaSearchRequest now alpha).collapsedPids = state.collapsedPids := by
    unfold UiState.applyAlphaSearchRequest
    dsimp only
    repeat' split
    all_goals exact ⟨rfl, rfl, rfl⟩
  refine ⟨h.listed, fun htree => ?_⟩
  have hwalk := h.tree (hsame.1 ▸ htree)
  unfold filteredProcesses at hwalk ⊢
  rw [hsame.2.1, hsame.2.2]
  exact hwalk

theorem frameAlpha_same (state : UiState) (h : snapshot.Listed)
    (hperm : snapshot.processes.Perm snapshot'.processes) (history history' : List SystemSnapshot)
    (now : ℕ) :
    (frameAlpha σ snapshot history now state).1.SameRows
        (frameAlpha τ snapshot' history' now state).1 ∧
      (frameAlpha σ snapshot history now state).2 =
        (frameAlpha τ snapshot' history' now state).2 := by
  unfold frameAlpha
  cases state.viewProfile with
  | beta => exact ⟨rfl, rfl⟩
  | alpha =>
    have hrows : (buildAlphaModel σ snapshot history state).SameRows
        (buildAlphaModel τ snapshot' history' state) := alphaRows_eq h hperm history history'
    exact ⟨hrows, applyAlphaSearchRequest_same hrows state now⟩

theorem showRows_same {alpha alpha' : AlphaModel} (h : alpha.SameRows alpha')
    (layout : WindowLayout) (rows : List ProcessRow) (state : UiState) :
    (showRows layout alpha rows state).Same (showRows layout alpha' rows state) := by
  unfold showRows
  dsimp only
  rw [drawProcessWindow_same h]
  exact ⟨rfl, rfl, h, rfl, rfl, rfl⟩

/-- One set of processes is shown in one way. -/
theorem buildFrame_same {state : UiState} (h : Ordered snapshot state)
    (hperm : snapshot.processes.Perm snapshot'.processes) (layout : WindowLayout)
    (history history' : List SystemSnapshot) (now : ℕ) :
    (buildFrame σ layout snapshot history now state).1.Same
        (buildFrame τ layout snapshot' history' now state).1 ∧
      (buildFrame σ layout snapshot history now state).2 =
        (buildFrame τ layout snapshot' history' now state).2 := by
  obtain ⟨halpha, hstate⟩ := frameAlpha_same (σ := σ) (τ := τ) state h.listed hperm
    history history' now
  have hordered : Ordered snapshot (frameAlpha σ snapshot history now state).2 := by
    unfold frameAlpha
    cases state.viewProfile with
    | beta => exact h
    | alpha => exact h.afterSearch now _
  have hrows := frameRows_eq (σ := σ) (τ := τ) hordered hperm
  unfold buildFrame
  dsimp only
  rw [← hstate, ← hrows]
  have hframe := showRows_same halpha layout
    (frameRows σ snapshot (frameAlpha σ snapshot history now state).2)
    ((frameAlpha σ snapshot history now state).2.applySearchRequest now
      (frameRows σ snapshot (frameAlpha σ snapshot history now state).2))
  refine ⟨hframe, ?_⟩
  rw [hframe.shown]
  exact drawPopups_same halpha _ _

end Frame

section Step
variable {σ τ : StdSort} {ui ui' : Ui}

theorem actions_same (h : ui.Same ui') {move move' : Move} (hmove : SameMove move move') :
    actions ui move = actions ui' move' := by
  cases hmove with
  | frame hperm rows cols now => rfl
  | input event env =>
    unfold actions
    dsimp only
    have hframe := h.frame
    cases hu : ui.frame with
    | none =>
      rw [hu] at hframe
      cases hu' : ui'.frame with
      | none => rfl
      | some frame' => rw [hu'] at hframe; cases hframe
    | some frame =>
      rw [hu] at hframe
      cases hu' : ui'.frame with
      | none => rw [hu'] at hframe; cases hframe
      | some frame' =>
        rw [hu'] at hframe
        cases hframe with
        | some hsame =>
          exact congrArg InputResult.actions (processInput_same h.config h.state hsame event env)

theorem step_same {next : Ui} (h : ui.Same ui') {move move' : Move} (hmove : SameMove move move')
    (hordered : OrderedMove ui move) (hstep : step σ move ui = some next) :
    ∃ next', step τ move' ui' = some next' ∧ next.Same next' := by
  cases hmove with
  | input event env =>
    obtain ⟨frame, hshown, hdue, rfl⟩ := step_input_iff.mp hstep
    have hframe := h.frame
    rw [hshown] at hframe
    cases hu' : ui'.frame with
    | none => rw [hu'] at hframe; cases hframe
    | some frame' =>
      rw [hu'] at hframe
      cases hframe with
      | some hsame =>
        have hinput := processInput_same h.config h.state hsame event env
        refine ⟨_, step_input_iff.mpr ⟨frame', hu', ?_, rfl⟩, ?_⟩
        · exact ⟨h.running ▸ hdue.1, h.polls ▸ hdue.2⟩
        · rw [← hinput]
          refine ⟨rfl, rfl, ?_, congrArg (· + 1) h.polls, rfl⟩
          show Option.Rel Frame.Same ui.frame ui'.frame
          rw [hshown, hu']
          exact .some hsame
  | frame hperm rows cols now =>
    obtain ⟨hdue, rfl⟩ := step_frame_iff.mp hstep
    have hnone : ui.frame.isNone = ui'.frame.isNone := by
      have hframe := h.frame
      revert hframe
      cases ui.frame <;> cases ui'.frame <;> intro hframe <;> first | rfl | cases hframe
    refine ⟨_, step_frame_iff.mpr ⟨?_, rfl⟩, ?_⟩
    · unfold Ui.FrameDue at hdue ⊢
      rwa [← h.running, ← hnone, ← h.polls]
    · obtain ⟨hframe, hstate⟩ := buildFrame_same (σ := σ) (τ := τ) hordered hperm
        (createWindows rows cols) ui.snapshotHistory ui'.snapshotHistory now
      unfold drawFrame
      rw [← h.state]
      exact ⟨h.config, hstate, .some hframe, rfl, h.running⟩

end Step

/-- Whatever the order in which the sampler lists the processes, and however each `std::sort` breaks
ties, two runs that get the same inputs and the same processes in every sample show the same rows, go
through the same states and act on the same processes. -/
theorem rows_in_any_listing_order (σ τ : StdSort) (config : AppConfig) {moves moves' : List Move}
    (hmoves : List.Forall₂ SameMove moves moves')
    (hordered : Machine.Always (step σ) OrderedMove moves (start config)) {ui : Ui}
    (hrun : Machine.run (step σ) moves (start config) = some ui) :
    (∃ ui', Machine.run (step τ) moves' (start config) = some ui' ∧ ui.Same ui') ∧
      Machine.trace (step σ) actions moves (start config) =
        Machine.trace (step τ) actions moves' (start config) := by
  refine Machine.run_lockstep (R := Ui.Same) (M := SameMove) ?_ ?_ hmoves
    ⟨rfl, rfl, .none, rfl, rfl⟩ hordered hrun
  · exact fun _ _ _ _ _ hs hm hgood hstep => step_same hs hm hgood hstep
  · exact fun _ _ _ _ hs hm _ => actions_same hs hm

/-- Two processes with the same CPU use, one above the other. -/
def familySample (processes : List ProcessSnapshot) : Move := .frame { processes } 30 80 0

/-- The family as the sampler may list it, one way or the other. -/
def familyRun (processes : List ProcessSnapshot) : List Move :=
  [familySample processes, .input { key := keyDown } {}, .input { key := key ']' } {}]

theorem rows_in_any_listing_order_family :
    ∃ ui ui', Machine.run (step .insertion) (familyRun familySnapshot.processes)
        (start { viewProfile := .beta }) = some ui ∧
      Machine.run (step .insertion) (familyRun familySnapshot.processes.reverse)
        (start { viewProfile := .beta }) = some ui' ∧ ui.Same ui' ∧
      Machine.trace (step .insertion) actions (familyRun familySnapshot.processes)
          (start { viewProfile := .beta }) =
        Machine.trace (step .insertion) actions (familyRun familySnapshot.processes.reverse)
          (start { viewProfile := .beta }) := by
  obtain ⟨ui, hrun⟩ := Option.isSome_iff_exists.mp (show (Machine.run (step .insertion)
    (familyRun familySnapshot.processes) (start { viewProfile := .beta })).isSome = true by
      decide)
  have hnumeric : ∀ process ∈ familySnapshot.processes, process.Numeric := by
    simp [familySnapshot, ProcessSnapshot.Numeric, OfNat.ofNat, Double.ofNat]
  have hsample : SameMove (familySample familySnapshot.processes)
      (familySample familySnapshot.processes.reverse) :=
    .frame (List.reverse_perm _).symm 30 80 0
  obtain ⟨⟨ui', hrun', hsame⟩, htrace⟩ := rows_in_any_listing_order .insertion .insertion
    { viewProfile := .beta }
    (.cons hsample (.cons (.input { key := keyDown } {}) (.cons (.input { key := key ']' } {}) .nil)))
    ⟨⟨⟨by decide, hnumeric⟩, nofun⟩, fun _ _ => ⟨trivial, fun _ _ => ⟨trivial, fun _ _ => trivial⟩⟩⟩ hrun
  exact ⟨ui, ui', hrun, hrun', hsame, htrace⟩

end Mtop
