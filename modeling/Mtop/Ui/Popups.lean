import Mtop.ConfigOrder
import Mtop.Ui.MainLoop
import Mtop.Ui.Paging

/-! What is open on top of the views: over whole runs, at most one popup or prompt at a time, in its
own profile, and with the keys kept from the views behind it. -/
namespace Mtop
open Cxx Machine
set_option autoImplicit false

/-! ## The settings of a run -/

/-- The options of the command line that change a setting. -/
structure SettingOptions where
  viewProfile : Option ViewProfile := none
  refreshMs : Option ℤ := none
  snapshotIntervalMs : Option ℤ := none
  processLimit : Option ℤ := none
  theme : Option Text := none
  demo : Bool := false

def SettingOptions.apply (options : SettingOptions) (config : AppConfig) : AppConfig :=
  { config with
    viewProfile := options.viewProfile.getD config.viewProfile
    refreshMs := (options.refreshMs.map (clamp · 100 60000)).getD config.refreshMs
    snapshotIntervalMs :=
      (options.snapshotIntervalMs.map (clamp · 100 60000)).getD config.snapshotIntervalMs
    processLimit := (options.processLimit.map (clamp · 4 1000)).getD config.processLimit
    theme := options.theme.getD config.theme
    demoMode := options.demo || config.demoMode }

/-- The settings that a run starts with. -/
def runConfig (file : Option Text) (options : SettingOptions) : AppConfig :=
  options.apply (loadConfig file)

/-- `sort_direction` is ascending or descending. -/
def Directed (direction : ℤ) : Prop := direction = 1 ∨ direction = -1

theorem Directed.neg {direction : ℤ} (h : Directed direction) : Directed (-direction) := by
  rcases h with rfl | rfl
  · exact .inr rfl
  · exact .inl rfl

theorem defaultSortDirection_directed (mode : SortMode) : Directed (defaultSortDirection mode) := by
  cases mode
  case pid => exact .inl rfl
  case name => exact .inl rfl
  all_goals exact .inr rfl

theorem parseSortDirection_directed (value : Text) {fallback : ℤ} (h : Directed fallback) :
    Directed (parseSortDirection value fallback) := by
  unfold parseSortDirection
  dsimp only
  split
  · exact .inl rfl
  · split
    · exact .inr rfl
    · exact h

theorem setValue_directed (key value : Text) {config : AppConfig}
    (h : Directed config.sortDirection) : Directed (setValue key value config).sortDirection := by
  rw [setValue_eq]
  dsimp only
  split
  · exact defaultSortDirection_directed _
  · split
    · exact parseSortDirection_directed value h
    · exact h

theorem parseLine_directed (line : Text) {config : AppConfig} (h : Directed config.sortDirection) :
    Directed (parseLine line config).sortDirection := by
  unfold parseLine
  split
  · exact h
  · split
    · exact h
    · exact setValue_directed _ _ h

theorem runConfig_directed (file : Option Text) (options : SettingOptions) :
    Directed (runConfig file options).sortDirection := by
  have hlines : ∀ (lines : List Text) (config : AppConfig), Directed config.sortDirection →
      Directed (lines.foldl (fun config line => parseLine (trim line) config) config).sortDirection := by
    intro lines
    induction lines with
    | nil => exact fun _ h => h
    | cons line lines ih => exact fun config h => ih _ (parseLine_directed (trim line) h)
  exact hlines _ {} (.inr rfl)

/-! ## The invariant -/

/-- How many of the popups and prompts are open. -/
def UiState.openCount (state : UiState) : ℕ :=
  state.showHelp.toNat + state.showSetup.toNat + state.showProcessDetail.toNat +
    state.showWorkloadDetail.toNat + (decide (state.promptMode ≠ .none)).toNat

structure Modal (state : UiState) : Prop where
  exclusive : state.openCount ≤ 1
  processDetail : state.showProcessDetail = true → state.viewProfile = .beta
  workloadDetail : state.showWorkloadDetail = true → state.viewProfile = .alpha
  direction : Directed state.sortDirection
  setupField : 0 ≤ state.setupField.number ∧ state.setupField.number ≤ 3
  workloadIndex : 0 ≤ state.workloadIndex
  tablePage : 0 ≤ state.tablePage

theorem start_modal {config : AppConfig} (h : Directed config.sortDirection) :
    Modal (start config).state :=
  ⟨Nat.zero_le 1, nofun, nofun, h, ⟨le_refl 0, Nat.cast_nonneg 3⟩, le_refl 0, le_refl 0⟩

/-- What the invariant reads. -/
def UiState.modes (state : UiState) :
    ℕ × Bool × Bool × ViewProfile × ℤ × SetupField × ℤ × ℤ :=
  (state.openCount, state.showProcessDetail, state.showWorkloadDetail, state.viewProfile,
    state.sortDirection, state.setupField, state.workloadIndex, state.tablePage)

theorem Modal.congr {state state' : UiState} (h : Modal state) (heq : state'.modes = state.modes) :
    Modal state' := by
  unfold UiState.modes at heq
  simp only [Prod.mk.injEq] at heq
  obtain ⟨hcount, hprocess, hworkload, hprofile, hdirection, hfield, hindex, hpage⟩ := heq
  exact ⟨hcount ▸ h.exclusive, hprofile ▸ hprocess ▸ h.processDetail,
    hprofile ▸ hworkload ▸ h.workloadDetail, hdirection ▸ h.direction, hfield ▸ h.setupField,
    hindex ▸ h.workloadIndex, hpage ▸ h.tablePage⟩

/-- Closing keeps the invariant. -/
theorem Modal.closes {state state' : UiState} (h : Modal state)
    (hcount : state'.openCount ≤ state.openCount)
    (hprocess : state'.showProcessDetail = true → state.showProcessDetail = true)
    (hworkload : state'.showWorkloadDetail = true → state.showWorkloadDetail = true)
    (hrest : (state'.viewProfile, state'.sortDirection, state'.setupField, state'.workloadIndex,
        state'.tablePage) = (state.viewProfile, state.sortDirection, state.setupField,
          state.workloadIndex, state.tablePage)) :
    Modal state' := by
  simp only [Prod.mk.injEq] at hrest
  obtain ⟨hprofile, hdirection, hfield, hindex, hpage⟩ := hrest
  exact ⟨hcount.trans h.exclusive, fun ho => hprofile ▸ h.processDetail (hprocess ho),
    fun ho => hprofile ▸ h.workloadDetail (hworkload ho), hdirection ▸ h.direction,
    hfield ▸ h.setupField, hindex ▸ h.workloadIndex, hpage ▸ h.tablePage⟩

/-- With nothing open, anything that is allowed in this profile can be opened. -/
theorem Modal.opens {state state' : UiState} (h : Modal state) (hcount : state'.openCount ≤ 1)
    (hprocess : state'.showProcessDetail = true → state'.viewProfile = .beta)
    (hworkload : state'.showWorkloadDetail = true → state'.viewProfile = .alpha)
    (hrest : (state'.sortDirection, state'.setupField, state'.workloadIndex, state'.tablePage) =
      (state.sortDirection, state.setupField, state.workloadIndex, state.tablePage)) :
    Modal state' := by
  simp only [Prod.mk.injEq] at hrest
  obtain ⟨hdirection, hfield, hindex, hpage⟩ := hrest
  exact ⟨hcount, hprocess, hworkload, hdirection ▸ h.direction, hfield ▸ h.setupField,
    hindex ▸ h.workloadIndex, hpage ▸ h.tablePage⟩

/-! ## Frames -/

theorem cyclicIndices_nonneg {base index : ℤ} {size : ℕ} (hindex : index ∈ cyclicIndices base size) :
    0 ≤ index := by
  obtain ⟨offset, hoffset, rfl⟩ := List.mem_map.mp hindex
  have hsize := List.mem_range.mp hoffset
  exact Int.emod_nonneg _ (by omega)

section Frames
variable {state : UiState} (h : Modal state) (now : ℕ) (alpha : AlphaModel) (rows : List ProcessRow)
include h

theorem applySearchRequest_modal : Modal (state.applySearchRequest now rows) := by
  unfold UiState.applySearchRequest
  split
  · exact h
  · dsimp only
    split
    · exact h.congr rfl
    · split <;> exact h.congr rfl

theorem applyAlphaSearchRequest_modal : Modal (state.applyAlphaSearchRequest now alpha) := by
  unfold UiState.applyAlphaSearchRequest
  split
  · exact h
  · dsimp only
    split
    · exact h.congr rfl
    · split
      · rename_i index hindex
        exact { h with workloadIndex := cyclicIndices_nonneg (List.mem_of_find?_eq_some hindex) }
      · exact h.congr rfl

theorem calculateProcessMetrics_modal (height : ℤ) :
    Modal (calculateProcessMetrics rows state height).2 := by
  have hpage := (calculateProcessMetrics_pageOk rows state height).nonneg
  unfold calculateProcessMetrics at hpage ⊢
  split
  · exact { h with tablePage := le_refl 0 }
  · rename_i hrows
    rw [if_neg hrows] at hpage
    exact { h with tablePage := hpage }

theorem drawProcessWindow_modal (layout : WindowLayout) (metrics : ProcessViewMetrics) :
    Modal (drawProcessWindow layout state alpha rows metrics).1 := by
  unfold drawProcessWindow
  split
  · unfold drawAlphaWorkloadsView
    split
    · exact h
    · split
      · exact { h with workloadIndex := le_refl 0 }
      · rename_i hrows
        have hsize := List.length_pos_iff.mpr hrows
        exact { h with workloadIndex := (clamp_mem (by omega) state.workloadIndex).1 }
  · split <;> exact h

theorem drawPopups_modal : Modal (drawPopups state alpha rows) := by
  unfold drawPopups
  split
  · exact h
  · split
    · split
      · refine h.closes ?_ id nofun rfl
        exact Nat.add_le_add_right (Nat.add_le_add_left (Nat.zero_le _) _) _
      · rename_i hrows
        have hsize := List.length_pos_iff.mpr hrows
        exact { h with workloadIndex := (clamp_mem (by omega) state.workloadIndex).1 }
    · split
      · split
        · exact h
        · refine h.closes ?_ nofun id rfl
          unfold UiState.openCount
          dsimp only
          have := Bool.toNat_false
          omega
      · exact h

end Frames

/-! ## Inputs -/

theorem expandSelected_modes (state : UiState) : state.expandSelected.modes = state.modes := by
  unfold UiState.expandSelected
  split <;> rfl

theorem collapseSelected_modes (rows : List ProcessRow) (state : UiState) :
    (state.collapseSelected rows).modes = state.modes := by
  unfold UiState.collapseSelected
  split
  · rfl
  · split <;> rfl

theorem toggleAllTreeNodes_modes (rows : List ProcessRow) (state : UiState) :
    (state.toggleAllTreeNodes rows).modes = state.modes := rfl

section Inputs
variable {state : UiState} (h : Modal state) (env : InputEnv) (config : AppConfig)
  (alpha : AlphaModel) (rows : List ProcessRow) (metrics : ProcessViewMetrics)
include h

theorem setSortMode_modal (mode : SortMode) : Modal (state.setSortMode mode) :=
  { h with direction := defaultSortDirection_directed mode, tablePage := le_refl 0 }

theorem setViewMode_modal (mode : ViewMode) : Modal (state.setViewMode mode) := by
  have hpage : Modal { state with tablePage := 0 } := { h with tablePage := le_refl 0 }
  refine hpage.closes ?_ nofun id rfl
  exact Nat.add_le_add_right (Nat.add_le_add_right (Nat.add_le_add_left (Nat.zero_le _) _) _) _

theorem invert_modal : Modal { state with sortDirection := -state.sortDirection } :=
  { h with direction := h.direction.neg }

theorem clickHeader_modal (layout : WindowLayout) (now : ℕ) (event : MouseEvent) :
    Modal (clickHeader layout now state event).1 := by
  unfold clickHeader
  split
  · split
    · exact h.congr rfl
    · split
      · dsimp only
        split
        · exact (invert_modal h).congr rfl
        · exact (setSortMode_modal h _).congr rfl
      · exact h.congr rfl
  · exact h

theorem translateEvent_modal (frame : Frame) (now : ℕ) (event : InputEvent) :
    Modal (translateEvent frame now state event).1 := by
  unfold translateEvent
  split
  · split
    · rename_i mouse _
      have hclick := clickHeader_modal h frame.layout now mouse
      unfold synthesizeMouseEvent
      split
      · rename_i hheader
        rwa [hheader] at hclick
      · rename_i hheader
        rw [hheader] at hclick
        split
        · exact hclick.congr rfl
        · exact hclick
    · exact h
  · exact h

theorem handleSetup_modal (ch : ℤ) :
    Modal (handleSetup config state ch).state := by
  have hclose : Modal { state with showSetup := false } := by
    refine h.closes ?_ id id rfl
    exact Nat.add_le_add_right (Nat.add_le_add_right (Nat.add_le_add_right
      (Nat.add_le_add_left (Nat.zero_le _) _) _) _) _
  obtain ⟨hlow, hhigh⟩ := h.setupField
  unfold handleSetup
  split
  · exact hclose
  · split
    · -- a field with one above it
      rename_i hup
      have hfirst : state.setupField.number ≠ 0 := fun hfield =>
        hup.2 (congrArg SetupField.mk hfield)
      have hfield : 0 ≤ state.setupField.number - 1 ∧ state.setupField.number - 1 ≤ 3 := by omega
      exact { h with setupField := hfield }
    · split
      · -- a field with one below it
        rename_i hdown
        have hlast : state.setupField.number ≠ 3 := fun hfield =>
          hdown.2 (congrArg SetupField.mk hfield)
        have hfield : 0 ≤ state.setupField.number + 1 ∧ state.setupField.number + 1 ≤ 3 := by omega
        exact { h with setupField := hfield }
      · split
        · dsimp only [result]
          split
          · exact hclose
          · exact h
        · split
          · split
            · exact h
            · split
              · exact h.congr rfl
              · split
                · exact h
                · exact h
          · exact h

theorem sendSignal_modal (signal : ℤ) :
    Modal (sendSignalToSelectedProcess env config state signal).state := by
  unfold sendSignalToSelectedProcess
  split <;> exact h.congr rfl

theorem renice_modal (delta : ℤ) : Modal (reniceSelectedProcess env config state delta).state := by
  unfold reniceSelectedProcess
  split
  · exact h.congr rfl
  · split <;> exact h.congr rfl

theorem closePrompt_modal : Modal { state with promptMode := .none } := by
  refine h.closes ?_ id id rfl
  exact Nat.add_le_add_left (Nat.zero_le _) _

theorem updateLivePrompt_modal : Modal (state.updateLivePrompt rows) := by
  unfold UiState.updateLivePrompt
  split
  · dsimp only
    split <;> exact h.congr rfl
  · exact h.congr rfl
  · exact h

theorem sortPromptKey_modal (ch : ℤ) : Modal (sortPromptKey state ch) :=
  sortPromptKey_cases state (setSortMode_modal h) (invert_modal h) h ch

theorem escapePrompt_modal : Modal (escapePrompt state) := by
  have hclose := closePrompt_modal h
  unfold escapePrompt
  cases state.promptMode with
  | filter => exact { hclose with tablePage := le_refl 0 }
  | none => exact hclose.congr rfl
  | search => exact hclose.congr rfl
  | sort => exact hclose.congr rfl
  | signal => exact hclose.congr rfl

theorem confirmPrompt_modal : Modal (confirmPrompt env config state).state := by
  have hclose := closePrompt_modal h
  unfold confirmPrompt
  split
  · exact hclose.congr rfl
  · exact { hclose with tablePage := le_refl 0 }
  · refine sendSignal_modal ?_ env config _
    exact hclose.congr rfl
  · exact hclose

theorem handlePrompt_modal (ch : ℤ) : Modal (handlePrompt env config state rows ch).state := by
  unfold handlePrompt
  split
  · exact escapePrompt_modal h
  · split
    · exact confirmPrompt_modal h env config
    · split
      · refine updateLivePrompt_modal ?_ rows
        exact h.congr rfl
      · split
        · exact (closePrompt_modal (sortPromptKey_modal h ch)).congr rfl
        · split
          · refine updateLivePrompt_modal ?_ rows
            exact h.congr rfl
          · exact h

theorem cycleView_modal (delta : ℤ) : Modal (cycleView env state delta) := by
  unfold cycleView
  split
  · exact h.congr rfl
  · exact (setViewMode_modal h (cycleViewMode state.viewMode delta)).congr rfl

theorem moveKey_modal (alphaDelta betaDelta : ℤ) {inactive : UiState} (hinactive : Modal inactive) :
    Modal (moveKey state alpha rows alphaDelta betaDelta inactive) := by
  unfold moveKey
  split
  · unfold UiState.moveWorkloadSelection
    split
    · exact { h with workloadIndex := le_refl 0 }
    · rename_i hrows
      have hsize := List.length_pos_iff.mpr hrows
      exact { h with workloadIndex := (clamp_mem (by omega) _).1 }
  · split
    · unfold UiState.moveSelection
      split <;> exact h.congr rfl
    · exact hinactive

theorem endKey_modal : Modal (endKey state alpha rows) := by
  unfold endKey
  split
  · split
    · exact h
    · rename_i hrows
      have hsize := List.length_pos_iff.mpr hrows
      have hindex : 0 ≤ (alpha.processRows.length : ℤ) - 1 := by omega
      exact { h with workloadIndex := hindex }
  · split <;> exact h.congr rfl

theorem treeKey_modal {edit : UiState → UiState} (message : UiState → Text)
    (hedit : ∀ state, (edit state).modes = state.modes) : Modal (treeKey env state edit message) := by
  unfold treeKey
  split
  · exact h
  · exact h.congr (hedit { state with treeMode := true })

theorem applyPidSearch_modal (now : ℕ) (ch : Char) : Modal (state.applyPidSearch now rows ch) := by
  unfold UiState.applyPidSearch
  generalize (if now > state.pidSearchDeadline then [] else state.pidSearch) = typed
  dsimp only
  split
  · exact h.congr rfl
  · split <;> exact h.congr rfl

/-! ## The main switch -/

omit h in
theorem openCount_eq_zero : state.openCount = 0 ↔
    state.showHelp = false ∧ state.showSetup = false ∧ state.showProcessDetail = false ∧
      state.showWorkloadDetail = false ∧ state.promptMode = .none := by
  unfold UiState.openCount
  simp only [Nat.add_eq_zero_iff, Bool.toNat_eq_zero, decide_eq_false_iff_not, not_not, and_assoc]

theorem detailKey_modal (hclosed : state.openCount = 0) : Modal (detailKey env state alpha) := by
  obtain ⟨hhelp, hsetup, hprocess, hworkload, hprompt⟩ := openCount_eq_zero.mp hclosed
  unfold detailKey
  split
  · rename_i halpha
    split
    · exact h.congr rfl
    · refine h.opens ?_ h.processDetail (fun _ => of_decide_eq_true halpha) rfl
      simp [UiState.openCount, hhelp, hsetup, hprocess, hprompt]
  · rename_i hbeta
    have hprofile : state.viewProfile = .beta := by
      cases hp : state.viewProfile with
      | alpha => exact absurd (decide_eq_true hp) hbeta
      | beta => rfl
    split
    · refine h.opens ?_ (fun _ => hprofile) h.workloadDetail rfl
      simp [UiState.openCount, hhelp, hsetup, hworkload, hprompt]
    · exact h.congr rfl

/-- Nothing is open, so the switch may open one thing. -/
theorem commandState_modal (hclosed : state.openCount = 0) (ch : ℤ) (cmd : Command) :
    Modal (commandState env state alpha rows metrics ch cmd) := by
  obtain ⟨hhelp, hsetup, hprocess, hworkload, hprompt⟩ := openCount_eq_zero.mp hclosed
  have hprompts : ∀ mode buffer saved, Modal { state with
      promptMode := mode, promptBuffer := buffer, promptSaved := saved } := by
    intro mode buffer saved
    refine h.opens ?_ h.processDetail h.workloadDetail rfl
    simp only [UiState.openCount, hhelp, hsetup, hprocess, hworkload, Bool.toNat_false, zero_add]
    exact Bool.toNat_le _
  cases cmd with
  | up => exact moveKey_modal h alpha rows _ _ h
  | down => exact moveKey_modal h alpha rows _ _ h
  | pageUp => exact moveKey_modal h alpha rows _ _ (cycleView_modal h env _)
  | pageDown => exact moveKey_modal h alpha rows _ _ (cycleView_modal h env _)
  | home =>
    show Modal (homeKey state rows)
    unfold homeKey
    split
    · exact { h with workloadIndex := le_refl 0 }
    · split <;> exact h.congr rfl
  | «end» => exact endKey_modal h alpha rows
  | sortBy mode => exact setSortMode_modal h mode
  | invertSort => exact (invert_modal h).congr rfl
  | nextView => exact cycleView_modal h env 1
  | previousView => exact cycleView_modal h env (-1)
  | cycleSort =>
    show Modal (cycleSortKey env state)
    unfold cycleSortKey
    split
    · exact (invert_modal h).congr rfl
    · exact (setSortMode_modal h (cycleSort state.sort)).congr rfl
  | openSearch => exact hprompts _ _ _
  | openFilter => exact hprompts _ _ _
  | openSort => exact hprompts .sort _ _
  | openSignal => exact hprompts .signal _ _
  | toggleTree =>
    show Modal (toggleTree env state)
    unfold toggleTree
    split
    · exact h
    · exact { h with tablePage := le_refl 0 }
  | openHelp =>
    show Modal { state with showHelp := true }
    refine h.opens ?_ h.processDetail h.workloadDetail rfl
    simp [UiState.openCount, hsetup, hprocess, hworkload, hprompt]
  | openSetup =>
    show Modal { state with showSetup := true }
    refine h.opens ?_ h.processDetail h.workloadDetail rfl
    simp [UiState.openCount, hhelp, hprocess, hworkload, hprompt]
  | openDetail => exact detailKey_modal h env alpha hclosed
  | expandNode =>
    unfold commandState
    exact treeKey_modal h env _ expandSelected_modes
  | collapseNode =>
    unfold commandState
    exact treeKey_modal h env _ (collapseSelected_modes rows)
  | toggleNodes =>
    unfold commandState
    exact treeKey_modal h env _ (toggleAllTreeNodes_modes rows)
  | clear => exact { h with tablePage := le_refl 0 }
  | other =>
    show Modal (otherKey env state rows ch)
    unfold otherKey
    dsimp only
    split
    · exact applyPidSearch_modal h rows env.now _
    · exact h
  | quit => exact h
  | renice _ => exact h

theorem handleInput_modal (ch : ℤ) :
    Modal (handleInput env config state alpha rows metrics ch).state := by
  have hhelp : Modal { state with showHelp := false } := by
    refine h.closes ?_ id id rfl
    exact Nat.add_le_add_right (Nat.add_le_add_right (Nat.add_le_add_right
      (Nat.add_le_add_right (Nat.zero_le _) _) _) _) _
  have hprocess : Modal { state with showProcessDetail := false } := by
    refine h.closes ?_ nofun id rfl
    exact Nat.add_le_add_right (Nat.add_le_add_right (Nat.add_le_add_left (Nat.zero_le _) _) _) _
  have hworkload : Modal { state with showWorkloadDetail := false } := by
    refine h.closes ?_ id nofun rfl
    exact Nat.add_le_add_right (Nat.add_le_add_left (Nat.zero_le _) _) _
  unfold handleInput
  by_cases hh : state.showHelp = true
  · rw [if_pos hh]
    dsimp only [result]
    split
    · exact hhelp
    · exact h
  rw [if_neg hh]
  by_cases hp : state.showProcessDetail = true
  · rw [if_pos hp]
    dsimp only [result]
    split
    · exact hprocess
    · exact h
  rw [if_neg hp]
  by_cases hw : state.showWorkloadDetail = true
  · rw [if_pos hw]
    dsimp only [result]
    split
    · exact hworkload
    · exact h
  rw [if_neg hw]
  by_cases hs : state.showSetup = true
  · rw [if_pos hs]
    exact handleSetup_modal h config ch
  rw [if_neg hs]
  by_cases hm : state.promptMode ≠ .none
  · rw [if_pos hm]
    exact handlePrompt_modal h env config rows ch
  rw [if_neg hm]
  have hclosed : state.openCount = 0 := openCount_eq_zero.mpr
    ⟨Bool.eq_false_of_not_eq_true hh, Bool.eq_false_of_not_eq_true hs,
      Bool.eq_false_of_not_eq_true hp, Bool.eq_false_of_not_eq_true hw, not_not.mp hm⟩
  unfold runCommand
  split
  · exact h
  · exact renice_modal h env config _
  · exact commandState_modal h env alpha rows metrics hclosed ch _

end Inputs

/-! ## Steps -/

theorem buildFrame_modal (σ : StdSort) (layout : WindowLayout) (snapshot : SystemSnapshot)
    (priorHistory : List SystemSnapshot) (now : ℕ) {state : UiState} (h : Modal state) :
    Modal (buildFrame σ layout snapshot priorHistory now state).2 := by
  have halpha : Modal (frameAlpha σ snapshot priorHistory now state).2 := by
    unfold frameAlpha
    split
    · exact h
    · exact applyAlphaSearchRequest_modal h now _
  have hsearched := applySearchRequest_modal halpha now
    (frameRows σ snapshot (frameAlpha σ snapshot priorHistory now state).2)
  have hpaged := calculateProcessMetrics_modal hsearched
    (frameRows σ snapshot (frameAlpha σ snapshot priorHistory now state).2) layout.processHeight
  have hdrawn := drawProcessWindow_modal hpaged (frameAlpha σ snapshot priorHistory now state).1
    (frameRows σ snapshot (frameAlpha σ snapshot priorHistory now state).2) layout
  refine drawPopups_modal ?_ _ _
  exact (hdrawn _).congr rfl

theorem processInput_modal {ui : Ui} (h : Modal ui.state) (frame : Frame) (event : InputEvent)
    (env : InputEnv) : Modal (processInput ui frame event env).state := by
  have hclick := translateEvent_modal h frame env.now event
  unfold processInput
  dsimp only
  split
  · exact hclick
  · exact handleInput_modal hclick env ui.config frame.alpha frame.rows frame.metrics _

theorem step_modal {σ : StdSort} {m : Move} {ui ui' : Ui} (h : Modal ui.state)
    (hstep : step σ m ui = some ui') : Modal ui'.state := by
  cases m with
  | frame snapshot rows cols now =>
    simp only [step, Option.ite_none_right_eq_some, Option.some.injEq] at hstep
    obtain ⟨-, rfl⟩ := hstep
    exact buildFrame_modal σ _ snapshot ui.snapshotHistory now h
  | input event env =>
    simp only [step] at hstep
    split at hstep
    · rename_i frame _
      simp only [Option.ite_none_right_eq_some, Option.some.injEq] at hstep
      obtain ⟨-, rfl⟩ := hstep
      exact processInput_modal h frame event env
    · cases hstep

/-! ## Behind a popup -/

/-- What a key leaves of the views while something is open: the sort prompt changes the order and
clears the selection, the filter prompt clears the selection, and nothing else changes any of it. -/
structure Behind (before after : UiState) : Prop where
  view : after.viewMode = before.viewMode
  index : after.workloadIndex = before.workloadIndex
  sort : (after.sort, after.sortDirection) = (before.sort, before.sortDirection) ∨
    before.promptMode = .sort
  selection : after.selectedPid = before.selectedPid ∨
    (after.selectedPid = none ∧ (before.promptMode = .sort ∨ before.promptMode = .filter))

/-- The part of the state that is behind the popups. -/
def UiState.behind (state : UiState) : ViewMode × ℤ × (SortMode × ℤ) × Option ℤ :=
  (state.viewMode, state.workloadIndex, (state.sort, state.sortDirection), state.selectedPid)

theorem Behind.of_eq {before after : UiState} (h : after.behind = before.behind) :
    Behind before after := by
  obtain ⟨hview, hrest⟩ := Prod.mk.inj h
  obtain ⟨hindex, hrest⟩ := Prod.mk.inj hrest
  obtain ⟨hsort, hselection⟩ := Prod.mk.inj hrest
  exact ⟨hview, hindex, .inl hsort, .inl hselection⟩

section Behind
variable (env : InputEnv) (config : AppConfig) (state : UiState) (alpha : AlphaModel)
  (rows : List ProcessRow) (metrics : ProcessViewMetrics)

theorem handleSetup_behind (ch : ℤ) :
    (handleSetup config state ch).state.behind = state.behind := by
  unfold handleSetup
  repeat' split
  all_goals rfl

theorem updateLivePrompt_behind : Behind state (state.updateLivePrompt rows) := by
  unfold UiState.updateLivePrompt
  split
  · rename_i hmode
    dsimp only
    split
    · exact .of_eq rfl
    · exact ⟨rfl, rfl, .inl rfl, .inr ⟨rfl, .inr hmode⟩⟩
  · exact .of_eq rfl
  · exact .of_eq rfl

theorem sortPromptKey_behind (hmode : state.promptMode = .sort) (ch : ℤ) :
    Behind state (sortPromptKey state ch) := by
  have hsort : ∀ mode, Behind state (state.setSortMode mode) :=
    fun mode => ⟨rfl, rfl, .inr hmode, .inr ⟨rfl, .inl hmode⟩⟩
  exact sortPromptKey_cases state hsort ⟨rfl, rfl, .inr hmode, .inl rfl⟩ (.of_eq rfl) ch

theorem sendSignal_behind (signal : ℤ) :
    (sendSignalToSelectedProcess env config state signal).state.behind = state.behind := by
  unfold sendSignalToSelectedProcess
  split <;> rfl

theorem handlePrompt_behind (ch : ℤ) :
    Behind state (handlePrompt env config state rows ch).state := by
  unfold handlePrompt
  split
  · unfold escapePrompt
    cases hmode : state.promptMode with
    | filter => exact ⟨rfl, rfl, .inl rfl, .inr ⟨rfl, .inr hmode⟩⟩
    | none => exact .of_eq rfl
    | search => exact .of_eq rfl
    | sort => exact .of_eq rfl
    | signal => exact .of_eq rfl
  · split
    · unfold confirmPrompt
      split
      · exact .of_eq rfl
      · rename_i hmode
        exact ⟨rfl, rfl, .inl rfl, .inr ⟨rfl, .inr hmode⟩⟩
      · exact .of_eq (sendSignal_behind env config _ _)
      · exact .of_eq rfl
    · split
      · have hlive := updateLivePrompt_behind
          { state with promptBuffer := state.promptBuffer.dropLast } rows
        exact ⟨hlive.view, hlive.index, hlive.sort, hlive.selection⟩
      · split
        · rename_i hmode
          have hkey := sortPromptKey_behind state hmode ch
          exact ⟨hkey.view, hkey.index, hkey.sort, hkey.selection⟩
        · split
          · have hlive := updateLivePrompt_behind
              { state with promptBuffer := state.promptBuffer ++ [Char.ofNat ch.toNat] } rows
            exact ⟨hlive.view, hlive.index, hlive.sort, hlive.selection⟩
          · exact .of_eq rfl

theorem handleInput_behind (hopen : state.openCount ≠ 0) (ch : ℤ) :
    Behind state (handleInput env config state alpha rows metrics ch).state := by
  unfold handleInput
  split
  · dsimp only [result]
    split <;> exact .of_eq rfl
  · split
    · dsimp only [result]
      split <;> exact .of_eq rfl
    · split
      · dsimp only [result]
        split <;> exact .of_eq rfl
      · split
        · exact .of_eq (handleSetup_behind config state ch)
        · split
          · exact handlePrompt_behind env config state rows ch
          · rename_i hh hp hw hs hm
            exact absurd (openCount_eq_zero.mpr
              ⟨Bool.eq_false_of_not_eq_true hh, Bool.eq_false_of_not_eq_true hs,
                Bool.eq_false_of_not_eq_true hp, Bool.eq_false_of_not_eq_true hw,
                not_not.mp hm⟩) hopen

theorem translateEvent_openCount (frame : Frame) (now : ℕ) (event : InputEvent) :
    (translateEvent frame now state event).1.openCount = state.openCount := by
  unfold translateEvent
  split
  · split
    · rename_i mouse _
      have hclick : (clickHeader frame.layout now state mouse).1.openCount = state.openCount := by
        unfold clickHeader
        split
        · split
          · rfl
          · split
            · dsimp only
              split <;> rfl
            · rfl
        · rfl
      unfold synthesizeMouseEvent
      split
      · rename_i hheader
        rwa [hheader] at hclick
      · rename_i hheader
        rw [hheader] at hclick
        split <;> exact hclick
    · rfl
  · rfl

end Behind

/-- In the frame on the screen every key, typed or from a click on the footer, stays in front of the
views while something is open. -/
def KeysStay (ui : Ui) : Prop :=
  ∀ frame event env, ui.frame = some frame → ui.state.openCount ≠ 0 →
    (event.key ≠ keyMouse → (translateEvent frame env.now ui.state event).1 = ui.state) ∧
      Behind (translateEvent frame env.now ui.state event).1 (processInput ui frame event env).state

theorem keysStay (ui : Ui) : KeysStay ui := by
  intro frame event env _ hopen
  refine ⟨fun hkey => ?_, ?_⟩
  · unfold translateEvent
    rw [if_neg hkey]
  · have hcount := translateEvent_openCount ui.state frame env.now event
    unfold processInput
    dsimp only
    split
    · exact .of_eq rfl
    · exact handleInput_behind env ui.config _ frame.alpha frame.rows frame.metrics
        (by rw [hcount]; exact hopen) _

/-- In every state of every run, one thing at most is open, in its own profile and in front of the
views, and the direction, the setup field, the index and the page are in their ranges. -/
theorem run_modal (σ : StdSort) (file : Option Text) (options : SettingOptions)
    (moves : List Move) : ∀ ui, run (step σ) moves (start (runConfig file options)) = some ui →
      Modal ui.state ∧ KeysStay ui := by
  intro ui hrun
  have hstep : ∀ ui move ui', Modal ui.state → step σ move ui = some ui' → Modal ui'.state :=
    fun _ _ _ => step_modal
  have hstart := start_modal (runConfig_directed file options)
  exact ⟨run_keeps hstep hstart hrun, keysStay ui⟩

/-- Beta: select a process and open its detail, which stays open when `F2` is pressed. -/
def detailRun : List Move :=
  [.frame { processes := [{ pid := 10 }] } 40 120 0, .input { key := keyDown } {},
    .input { key := key 'd' } {}, .input { key := keyF 2 } {}]

theorem run_modal_detail :
    ∃ ui, run (step .insertion) detailRun (start (runConfig none { viewProfile := some .beta })) =
        some ui ∧ ui.state.showProcessDetail = true ∧ Modal ui.state ∧ KeysStay ui := by
  have hrun : ((run (step .insertion) detailRun
      (start (runConfig none { viewProfile := some .beta }))).map
        fun ui => ui.state.showProcessDetail) = some true := by decide
  obtain ⟨ui, hui, hopen⟩ := Option.map_eq_some_iff.mp hrun
  have hmodal := run_modal .insertion none { viewProfile := some .beta } detailRun ui hui
  exact ⟨ui, hui, hopen, hmodal⟩

end Mtop
