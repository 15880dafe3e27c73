import Mtop.Ui.MainLoop

/-! What no input changes: the profile of the run and the buttons that the last frame drew. -/
namespace Mtop
open Cxx
set_option autoImplicit false

/-- The part of the state that only frames write. -/
def UiState.fixed (state : UiState) : ViewProfile × List ButtonBounds :=
  (state.viewProfile, state.footerButtons)

variable (env : InputEnv) (config : AppConfig) (state : UiState) (alpha : AlphaModel)
  (rows : List ProcessRow) (metrics : ProcessViewMetrics)

theorem sortPromptKey_fixed (ch : ℤ) :
    (sortPromptKey state ch).fixed = state.fixed :=
  sortPromptKey_cases (P := fun after => after.fixed = state.fixed) state (fun _ => rfl) rfl rfl ch

theorem updateLivePrompt_fixed :
    (state.updateLivePrompt rows).fixed = state.fixed := by
  unfold UiState.updateLivePrompt
  split
  · dsimp only
    split <;> rfl
  · rfl
  · rfl

theorem sendSignal_fixed (signal : ℤ) :
    (sendSignalToSelectedProcess env config state signal).state.fixed =
      state.fixed := by
  unfold sendSignalToSelectedProcess
  split <;> rfl

theorem renice_fixed (delta : ℤ) :
    (reniceSelectedProcess env config state delta).state.fixed = state.fixed := by
  unfold reniceSelectedProcess
  repeat' split
  all_goals rfl

theorem handlePrompt_fixed (ch : ℤ) :
    (handlePrompt env config state rows ch).state.fixed = state.fixed := by
  unfold handlePrompt
  split
  · unfold escapePrompt
    cases hmode : state.promptMode <;> rfl
  · split
    · unfold confirmPrompt
      split
      · rfl
      · rfl
      · apply sendSignal_fixed
      · rfl
    · split
      · apply updateLivePrompt_fixed
      · split
        · apply sortPromptKey_fixed
        · split
          · apply updateLivePrompt_fixed
          · rfl

theorem handleSetup_fixed (ch : ℤ) :
    (handleSetup config state ch).state.fixed = state.fixed := by
  unfold handleSetup
  repeat' split
  all_goals rfl

theorem moveSelection_fixed (delta : ℤ) :
    (state.moveSelection rows delta).fixed = state.fixed := by
  unfold UiState.moveSelection
  split <;> rfl

theorem moveWorkloadSelection_fixed (delta : ℤ) :
    (state.moveWorkloadSelection alpha delta).fixed = state.fixed := by
  unfold UiState.moveWorkloadSelection
  split <;> rfl

theorem cycleView_fixed (delta : ℤ) :
    (cycleView env state delta).fixed = state.fixed := by
  unfold cycleView
  split <;> rfl

theorem moveKey_fixed (alphaDelta betaDelta : ℤ) {inactive : UiState}
    (h : inactive.fixed = state.fixed) :
    (moveKey state alpha rows alphaDelta betaDelta inactive).fixed =
      state.fixed := by
  unfold moveKey
  split
  · apply moveWorkloadSelection_fixed
  · split
    · apply moveSelection_fixed
    · exact h

theorem treeKey_fixed {edit : UiState → UiState} (message : UiState → Text)
    (h : ∀ state, (edit state).fixed = state.fixed) :
    (treeKey env state edit message).fixed = state.fixed := by
  unfold treeKey
  split
  · rfl
  · exact h _

theorem expandSelected_fixed :
    state.expandSelected.fixed = state.fixed := by
  unfold UiState.expandSelected
  split <;> rfl

theorem collapseSelected_fixed :
    (state.collapseSelected rows).fixed = state.fixed := by
  unfold UiState.collapseSelected
  repeat' split
  all_goals rfl

theorem applyPidSearch_fixed (now : ℕ) (ch : Char) :
    (state.applyPidSearch now rows ch).fixed = state.fixed := by
  unfold UiState.applyPidSearch
  generalize (if now > state.pidSearchDeadline then [] else state.pidSearch) = typed
  dsimp only
  split
  · rfl
  · split <;> rfl

theorem commandState_fixed (ch : ℤ) (cmd : Command) :
    (commandState env state alpha rows metrics ch cmd).fixed = state.fixed := by
  cases cmd with
  | up => exact moveKey_fixed state alpha rows _ _ rfl
  | down => exact moveKey_fixed state alpha rows _ _ rfl
  | pageUp =>
    exact moveKey_fixed state alpha rows _ _ (cycleView_fixed env state _)
  | pageDown =>
    exact moveKey_fixed state alpha rows _ _ (cycleView_fixed env state _)
  | home =>
    show (homeKey state rows).fixed = state.fixed
    unfold homeKey
    repeat' split
    all_goals rfl
  | «end» =>
    show (endKey state alpha rows).fixed = state.fixed
    unfold endKey
    repeat' split
    all_goals rfl
  | nextView => apply cycleView_fixed
  | previousView => apply cycleView_fixed
  | cycleSort =>
    show (cycleSortKey env state).fixed = state.fixed
    unfold cycleSortKey
    split <;> rfl
  | toggleTree =>
    show (toggleTree env state).fixed = state.fixed
    unfold toggleTree
    split <;> rfl
  | openDetail =>
    show (detailKey env state alpha).fixed = state.fixed
    unfold detailKey
    repeat' split
    all_goals rfl
  | expandNode => exact treeKey_fixed env state _ fun s => expandSelected_fixed s
  | collapseNode =>
    exact treeKey_fixed env state _ fun s => collapseSelected_fixed s rows
  | toggleNodes => exact treeKey_fixed env state _ fun _ => rfl
  | other =>
    show (otherKey env state rows ch).fixed = state.fixed
    unfold otherKey
    dsimp only
    split
    · exact applyPidSearch_fixed state rows env.now _
    · rfl
  | _ => rfl

theorem handleInput_fixed (ch : ℤ) :
    (handleInput env config state alpha rows metrics ch).state.fixed =
      state.fixed := by
  unfold handleInput
  split
  · dsimp only [result]
    split <;> rfl
  · split
    · dsimp only [result]
      split <;> rfl
    · split
      · dsimp only [result]
        split <;> rfl
      · split
        · apply handleSetup_fixed
        · split
          · apply handlePrompt_fixed
          · unfold runCommand
            split
            · rfl
            · apply renice_fixed
            · apply commandState_fixed

/-! ## Frames -/

theorem applySearchRequest_fixed (now : ℕ) :
    (state.applySearchRequest now rows).fixed = state.fixed := by
  unfold UiState.applySearchRequest
  split
  · rfl
  · dsimp only
    split
    · rfl
    · split <;> rfl

theorem applyAlphaSearchRequest_fixed (now : ℕ) :
    (state.applyAlphaSearchRequest now alpha).fixed = state.fixed := by
  unfold UiState.applyAlphaSearchRequest
  split
  · rfl
  · dsimp only
    split
    · rfl
    · split <;> rfl

theorem frameAlpha_fixed (σ : StdSort) (snapshot : SystemSnapshot)
    (priorHistory : List SystemSnapshot) (now : ℕ) :
    (frameAlpha σ snapshot priorHistory now state).2.fixed = state.fixed := by
  unfold frameAlpha
  split
  · rfl
  · apply applyAlphaSearchRequest_fixed

theorem calculateProcessMetrics_fixed (height : ℤ) :
    (calculateProcessMetrics rows state height).2.fixed = state.fixed := by
  unfold calculateProcessMetrics
  split <;> rfl

theorem drawProcessWindow_fixed (layout : WindowLayout) :
    (drawProcessWindow layout state alpha rows metrics).1.fixed = state.fixed := by
  unfold drawProcessWindow
  split
  · unfold drawAlphaWorkloadsView
    split
    · rfl
    · split <;> rfl
  · split <;> rfl

theorem showRows_fixed (layout : WindowLayout) :
    (showRows layout alpha rows state).shown.fixed = state.fixed :=
  (drawProcessWindow_fixed _ alpha rows _ layout).trans (calculateProcessMetrics_fixed state rows _)

theorem drawPopups_fixed : (drawPopups state alpha rows).fixed = state.fixed := by
  unfold drawPopups
  repeat' split
  all_goals rfl

/-- Drawing the footer leaves every button with its old event or with that of a label. -/
theorem drawKeyLabels_event {p : ℤ → Prop} (width : ℤ) {labels : List (Text × Text × ℤ)}
    (hlabels : ∀ label ∈ labels, p label.2.2) {buttons : List ButtonBounds} (col : ℤ)
    (hbuttons : ∀ button ∈ buttons, p button.event) :
    ∀ button ∈ drawKeyLabels width col labels buttons, p button.event := by
  induction labels generalizing buttons col with
  | nil =>
    cases buttons with
    | nil => exact hbuttons
    | cons bounds buttons => exact hbuttons
  | cons label labels ih =>
    cases buttons with
    | nil => exact hbuttons
    | cons bounds buttons =>
      intro button hbutton
      rcases List.mem_cons.mp hbutton with rfl | hbutton
      · unfold drawKeyLabel
        split
        · exact hbuttons bounds List.mem_cons_self
        · exact hlabels label List.mem_cons_self
      · exact ih (fun l hl => hlabels l (List.mem_cons_of_mem _ hl)) _
          (fun b hb => hbuttons b (List.mem_cons_of_mem _ hb)) button hbutton

end Mtop
