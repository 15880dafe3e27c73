import Mtop.Model.WorkloadTotals
import Mtop.Ui.MainLoop

/-! The filter of the Alpha process list against the one of the Beta list. On a process that is no AI
workload the Alpha filter also reads the placeholder kind. -/
namespace Mtop
open Cxx
set_option autoImplicit false

/-! ## The rows that a filter keeps -/

theorem filter_unless_empty {α : Type} {query : Text} {keep : α → Bool} {rows : List α}
    (h : query = [] → ∀ row, keep row = true) :
    (if query = [] then rows else rows.filter keep) = rows.filter keep := by
  split
  · rename_i hempty
    exact (List.filter_eq_self.mpr fun row _ => h hempty row).symm
  · rfl

theorem aiProcessMatchesQuery_nil (row : AiProcessRow) : aiProcessMatchesQuery row [] = true := by
  simp [aiProcessMatchesQuery, processMatchesQuery]

section Lists
variable (σ : StdSort) (snapshot : SystemSnapshot) (history : List SystemSnapshot) (state : UiState)

/-- The processes of the Alpha list. -/
def alphaProcesses : List ProcessSnapshot :=
  (buildAlphaModel σ snapshot history state).processRows.map (·.process)

theorem alphaProcesses_perm :
    (alphaProcesses σ snapshot history state).Perm (snapshot.processes.filter fun process =>
      aiProcessMatchesQuery (aiProcessRow process) state.filter) := by
  have hsorted : ∀ rows : List AiProcessRow,
      (if state.sortDirection > 0 then σ.sort alphaRowLess rows else rows).Perm rows := by
    intro rows
    split
    · exact σ.perm alphaRowLess rows
    · exact List.Perm.refl rows
  have hkept : (buildAlphaModel σ snapshot history state).processRows.Perm
      ((snapshot.processes.map aiProcessRow).filter (aiProcessMatchesQuery · state.filter)) := by
    refine (hsorted _).trans ?_
    rw [filter_unless_empty fun h row => h ▸ aiProcessMatchesQuery_nil row]
    exact (σ.perm aiRowLess _).filter _
  refine (hkept.map _).trans (.of_eq ?_)
  rw [List.filter_map, List.map_map]
  refine (List.map_congr_left fun process _ => aiProcessRow_process process).trans ?_
  exact List.map_id _

theorem mem_alphaProcesses {process : ProcessSnapshot} :
    process ∈ alphaProcesses σ snapshot history state ↔ process ∈ snapshot.processes ∧
      aiProcessMatchesQuery (aiProcessRow process) state.filter = true := by
  rw [(alphaProcesses_perm σ snapshot history state).mem_iff, List.mem_filter]

end Lists

/-! ## Processes that are no AI workload -/

theorem aiProcessRow_plain {process : ProcessSnapshot} (h : (aiProcessRow process).isAi = false) :
    (aiProcessRow process).detection =
      ⟨.unknown, .unknown, process.name, [], str "no AI workload signal", 0⟩ := by
  unfold aiProcessRow at h ⊢
  dsimp only at h ⊢
  split at h
  · rename_i hai
    rw [hai] at h
    cases h
  · rename_i hai
    rw [if_neg hai]

/-- Kind, hint and label are placeholders, and only the kind can add a match. -/
theorem aiProcessMatchesQuery_plain {process : ProcessSnapshot} (query : Text)
    (h : (aiProcessRow process).isAi = false) :
    aiProcessMatchesQuery (aiProcessRow process) query =
      (processMatchesQuery process query || containsFold (str "Unknown") query) := by
  have hhint : containsFold [] query = true → processMatchesQuery process query = true := by
    intro hin
    have hempty : lowercase query = [] := List.infix_nil.mp (of_decide_eq_true hin)
    rw [List.map_eq_nil_iff.mp hempty]
    rfl
  have hname : containsFold process.name query = true →
      processMatchesQuery process query = true := by
    intro hin
    simp [processMatchesQuery, hin]
  have hquery : decide (query = []) = true → processMatchesQuery process query = true := by
    intro hempty
    simp [processMatchesQuery, of_decide_eq_true hempty]
  unfold aiProcessMatchesQuery
  rw [aiProcessRow_process, aiProcessRow_plain h]
  rw [Bool.eq_iff_iff]
  simp only [workloadKindLabel, Bool.or_eq_true]
  tauto

section Agreement
variable (σ : StdSort) {snapshot : SystemSnapshot} (history : List SystemSnapshot) (state : UiState)
  {process : ProcessSnapshot}

/-- Both lists keep a process that is no AI workload exactly when the query finds it, unless the query
is part of the word unknown and finds it nowhere else. -/
theorem plain_filters_agree_iff (hmem : process ∈ snapshot.processes)
    (hplain : (aiProcessRow process).isAi = false) :
    ((process ∈ alphaProcesses σ snapshot history state ↔
          processMatchesQuery process state.filter = true) ∧
        (process ∈ alphaProcesses σ snapshot history state ↔
          process ∈ filteredProcesses snapshot state)) ↔
      processMatchesQuery process state.filter = true ∨
        containsFold (str "Unknown") state.filter = false := by
  have halpha : process ∈ alphaProcesses σ snapshot history state ↔
      processMatchesQuery process state.filter = true ∨
        containsFold (str "Unknown") state.filter = true := by
    rw [mem_alphaProcesses, and_iff_right hmem, aiProcessMatchesQuery_plain _ hplain,
      Bool.or_eq_true]
  have hbeta : process ∈ filteredProcesses snapshot state ↔
      processMatchesQuery process state.filter = true := by
    rw [filteredProcesses, List.mem_filter, and_iff_right hmem]
  rw [hbeta, and_self_iff, halpha, or_iff_left_iff_imp, ← Bool.not_eq_true]
  tauto

end Agreement

def shell : ProcessSnapshot :=
  { pid := 7, parentPid := 1, user := str "me", name := str "zsh", command := str "-zsh" }

/-- The filter `unk` keeps every process of the Alpha list. -/
theorem unknown_kind_matches :
    (aiProcessRow shell).isAi = false ∧
      (alphaProcesses .insertion { processes := [shell] } [] { filter := str "unk" }).map (·.pid) =
        [7] ∧
      filteredProcesses { processes := [shell] } { filter := str "unk" } = [] := by
  decide +kernel

theorem plain_filters_agree_iff_shell :
    ((shell ∈ alphaProcesses .insertion { processes := [shell] } [] { filter := str "unk" } ↔
          processMatchesQuery shell (str "unk") = true) ∧
        (shell ∈ alphaProcesses .insertion { processes := [shell] } [] { filter := str "unk" } ↔
          shell ∈ filteredProcesses { processes := [shell] } { filter := str "unk" })) ↔
      processMatchesQuery shell (str "unk") = true ∨
        containsFold (str "Unknown") (str "unk") = false :=
  plain_filters_agree_iff .insertion [] { filter := str "unk" } List.mem_cons_self
    (by decide +kernel)

end Mtop
