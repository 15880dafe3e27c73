import Mtop.Library.Utf8
import Mtop.Ui.LoopSteps
import Mtop.Ui.Popups
import Mtop.Ui.Target

/-! The texts of the prompts, the filter and the search: in every run they are printable, and an open
prompt shows the text that is in force. -/
namespace Mtop
open Cxx
set_option autoImplicit false

/-! ## What frames leave alone -/

/-- The state without what building and showing the rows writes. -/
def UiState.unscrolled (state : UiState) : UiState :=
  { state with
    tablePage := 0
    workloadIndex := 0
    selectedPid := none
    statusMessage := []
    statusDeadline := 0
    searchPending := false
    footerButtons := [] }

/-- The state without what frames write; a detail without its row is closed. -/
def UiState.unframed (state : UiState) : UiState :=
  { state.unscrolled with showProcessDetail := false, showWorkloadDetail := false }

section Frames
variable (σ : StdSort) (layout : WindowLayout) (snapshot : SystemSnapshot)
  (history : List SystemSnapshot) (now : ℕ) (state : UiState) (alpha : AlphaModel)
  (rows : List ProcessRow)

theorem applySearchRequest_unscrolled :
    (state.applySearchRequest now rows).unscrolled = state.unscrolled := by
  unfold UiState.applySearchRequest
  dsimp only
  repeat' split
  all_goals rfl

theorem applyAlphaSearchRequest_unscrolled :
    (state.applyAlphaSearchRequest now alpha).unscrolled = state.unscrolled := by
  unfold UiState.applyAlphaSearchRequest
  dsimp only
  repeat' split
  all_goals rfl

theorem frameAlpha_unscrolled :
    (frameAlpha σ snapshot history now state).2.unscrolled = state.unscrolled := by
  unfold frameAlpha
  split
  · rfl
  · exact applyAlphaSearchRequest_unscrolled now state _

theorem showRows_unscrolled :
    (showRows layout alpha rows state).shown.unscrolled = state.unscrolled := by
  unfold showRows calculateProcessMetrics drawProcessWindow drawAlphaWorkloadsView
  dsimp only
  repeat' split
  all_goals rfl

theorem buildFrame_shown_unscrolled :
    (buildFrame σ layout snapshot history now state).1.shown.unscrolled = state.unscrolled :=
  ((showRows_unscrolled _ _ _ _).trans (applySearchRequest_unscrolled _ _ _)).trans
    (frameAlpha_unscrolled σ snapshot history now state)

theorem drawPopups_unframed : (drawPopups state alpha rows).unframed = state.unframed := by
  unfold drawPopups
  repeat' split
  all_goals rfl

theorem drawPopups_closed (h : state.openCount = 0) : (drawPopups state alpha rows).openCount = 0 := by
  obtain ⟨hhelp, hsetup, hprocess, hworkload, hprompt⟩ := openCount_eq_zero.mp h
  unfold drawPopups
  rw [if_neg (by rw [hhelp, hsetup]; decide), hworkload, hprocess]
  exact h

theorem buildFrame_unframed :
    (buildFrame σ layout snapshot history now state).2.unframed = state.unframed := by
  have hshown := congrArg UiState.unframed
    (buildFrame_shown_unscrolled σ layout snapshot history now state)
  exact (drawPopups_unframed _ _ _).trans hshown

theorem buildFrame_closed (h : state.openCount = 0) :
    (buildFrame σ layout snapshot history now state).2.openCount = 0 := by
  have hshown := congrArg UiState.openCount
    (buildFrame_shown_unscrolled σ layout snapshot history now state)
  exact drawPopups_closed _ _ _ (hshown.trans h)

end Frames

/-! ## Texts -/

/-- The characters that `isprint` and the range of the prompt admit. -/
def Printable (text : Text) : Prop := ∀ c ∈ text, 32 ≤ c.toNat ∧ c.toNat ≤ 126

/-- What a key other than Escape and Enter does to the text of a prompt. -/
def editText (text : Text) (ch : ℤ) : Text :=
  if ch = keyBackspace ∨ ch = 127 then text.dropLast
  else if 32 ≤ ch ∧ ch ≤ 126 then text ++ [Char.ofNat ch.toNat]
  else text

theorem Printable.edit {text : Text} (h : Printable text) (ch : ℤ) :
    Printable (editText text ch) := by
  unfold editText
  split
  · exact fun c hc => h c (List.dropLast_subset _ hc)
  · split
    · rename_i hch
      intro c hc
      rcases List.mem_append.mp hc with hc | hc
      · exact h c hc
      · obtain rfl := List.mem_singleton.mp hc
        rw [Rfc8259.toNat_ofNat (by omega)]
        omega
    · exact h

/-- Backspaces empty a prompt, and a printable text is typed character by character. -/
theorem edits_of_printable (old : Text) {text : Text} (h : Printable text) :
    (List.replicate old.length keyBackspace ++ text.map key).foldl editText old = text := by
  have hempty : ∀ (n : ℕ) (old : Text), old.length ≤ n →
      (List.replicate n keyBackspace).foldl editText old = [] := by
    intro n
    induction n with
    | zero => exact fun old hold => List.eq_nil_of_length_eq_zero (Nat.le_zero.mp hold)
    | succ n ih =>
      intro old hold
      refine ih _ ?_
      show old.dropLast.length ≤ n
      rw [List.length_dropLast]
      omega
  have htyped : ∀ (rest typed : Text), Printable rest →
      (rest.map key).foldl editText typed = typed ++ rest := by
    intro rest
    induction rest with
    | nil => exact fun typed _ => (List.append_nil typed).symm
    | cons c rest ih =>
      intro typed hrest
      have hc := hrest c List.mem_cons_self
      have hkey : editText typed (key c) = typed ++ [c] := by
        unfold editText key
        rw [if_neg (by unfold keyBackspace; omega), if_pos (by omega), Int.toNat_natCast]
        rw [show Char.ofNat c.toNat = c from Char.ofNat_toNat c]
      rw [List.map_cons, List.foldl_cons, hkey,
        ih _ fun c hc => hrest c (List.mem_cons_of_mem _ hc), List.append_assoc]
      rfl
  rw [List.foldl_append, hempty _ old (le_refl _), htyped text [] h, List.nil_append]

/-! ## What typing concerns -/

/-- The open prompt, its text, the filter and the search. -/
def UiState.typing (state : UiState) : PromptMode × Text × Text × Text :=
  (state.promptMode, state.promptBuffer, state.filter, state.search)

/-- All texts are printable, and an open prompt shows the text that is in force. -/
structure Typed (state : UiState) : Prop where
  buffer : Printable state.promptBuffer
  filter : Printable state.filter
  search : Printable state.search
  liveFilter : state.promptMode = .filter → state.filter = state.promptBuffer
  liveSearch : state.promptMode = .search → state.search = state.promptBuffer

theorem Typed.congr {state state' : UiState} (h : Typed state) (heq : state'.typing = state.typing) :
    Typed state' := by
  simp only [UiState.typing, Prod.mk.injEq] at heq
  obtain ⟨hmode, hbuffer, hfilter, hsearch⟩ := heq
  constructor
  · exact hbuffer ▸ h.buffer
  · exact hfilter ▸ h.filter
  · exact hsearch ▸ h.search
  · rw [hmode, hfilter, hbuffer]
    exact h.liveFilter
  · rw [hmode, hsearch, hbuffer]
    exact h.liveSearch

theorem typing_of_unframed {state state' : UiState} (h : state'.unframed = state.unframed) :
    state'.typing = state.typing := by
  have htyping := congrArg UiState.typing h
  exact htyping

/-! ## Inputs -/

section Inputs
variable (env : InputEnv) (config : AppConfig) (state : UiState) (alpha : AlphaModel)
  (rows : List ProcessRow) (metrics : ProcessViewMetrics)

theorem clickHeader_typing (layout : WindowLayout) (now : ℕ) (event : MouseEvent) :
    (clickHeader layout now state event).1.typing = state.typing := by
  unfold clickHeader
  split
  · split
    · rfl
    · split
      · dsimp only
        split <;> rfl
      · rfl
  · rfl

theorem translateEvent_typing (frame : Frame) (now : ℕ) (event : InputEvent) :
    (translateEvent frame now state event).1.typing = state.typing := by
  unfold translateEvent
  split
  · split
    · rename_i mouse _
      have hclick := clickHeader_typing state frame.layout now mouse
      unfold synthesizeMouseEvent
      split
      · rename_i hheader
        rwa [hheader] at hclick
      · rename_i hheader
        rw [hheader] at hclick
        split <;> exact hclick
    · rfl
  · rfl

theorem handleSetup_typing (ch : ℤ) : (handleSetup config state ch).state.typing = state.typing := by
  unfold handleSetup
  repeat' split
  all_goals rfl

theorem renice_typing (delta : ℤ) :
    (reniceSelectedProcess env config state delta).state.typing = state.typing := by
  unfold reniceSelectedProcess
  repeat' split
  all_goals rfl

theorem sendSignal_typing (signal : ℤ) :
    (sendSignalToSelectedProcess env config state signal).state.typing = state.typing := by
  unfold sendSignalToSelectedProcess
  split <;> rfl

theorem moveKey_typing (alphaDelta betaDelta : ℤ) {inactive : UiState}
    (h : inactive.typing = state.typing) :
    (moveKey state alpha rows alphaDelta betaDelta inactive).typing = state.typing := by
  unfold moveKey UiState.moveWorkloadSelection UiState.moveSelection
  repeat' split
  all_goals first
    | rfl
    | exact h

theorem cycleView_typing (delta : ℤ) : (cycleView env state delta).typing = state.typing := by
  unfold cycleView
  split <;> rfl

theorem treeKey_typing {edit : UiState → UiState} (message : UiState → Text)
    (hedit : ∀ state, (edit state).typing = state.typing) :
    (treeKey env state edit message).typing = state.typing := by
  unfold treeKey
  split
  · rfl
  · exact hedit _

/-- A text prompt edits its text with every key but Escape and Enter. -/
def PromptMode.isText (mode : PromptMode) : Prop :=
  mode = .filter ∨ mode = .search ∨ mode = .signal

section Prompt
variable {state} (hstate : Typed state)
include hstate

theorem escapePrompt_typed : Typed (escapePrompt state) := by
  unfold escapePrompt
  cases state.promptMode with
  | filter => exact ⟨nofun, nofun, hstate.search, nofun, nofun⟩
  | search => exact ⟨nofun, hstate.filter, nofun, nofun, nofun⟩
  | none => exact ⟨nofun, hstate.filter, hstate.search, nofun, nofun⟩
  | sort => exact ⟨nofun, hstate.filter, hstate.search, nofun, nofun⟩
  | signal => exact ⟨nofun, hstate.filter, hstate.search, nofun, nofun⟩

theorem confirmPrompt_typed : Typed (confirmPrompt env config state).state := by
  unfold confirmPrompt
  split
  · exact ⟨hstate.buffer, hstate.filter, hstate.buffer, nofun, nofun⟩
  · exact ⟨hstate.buffer, hstate.buffer, hstate.search, nofun, nofun⟩
  · refine Typed.congr ?_ (sendSignal_typing env config _ _)
    exact ⟨nofun, hstate.filter, hstate.search, nofun, nofun⟩
  · exact ⟨hstate.buffer, hstate.filter, hstate.search, nofun, nofun⟩

/-- The filter and the search follow the text. -/
theorem updateLivePrompt_typed {text : Text} (htext : Printable text) :
    Typed ({ state with promptBuffer := text }.updateLivePrompt rows) := by
  unfold UiState.updateLivePrompt
  split
  · rename_i hmode
    have hnew : Typed { state with promptBuffer := text, filter := text } :=
      ⟨htext, htext, hstate.search, fun _ => rfl,
        fun hs => absurd (hmode.symm.trans hs) (by decide)⟩
    dsimp only
    split
    · exact hnew
    · exact hnew.congr rfl
  · rename_i hmode
    exact ⟨htext, hstate.filter, htext, fun hf => absurd (hmode.symm.trans hf) (by decide), fun _ => rfl⟩
  · rename_i hfilter hsearch
    exact ⟨htext, hstate.filter, hstate.search, fun hf => absurd hf hfilter,
      fun hs => absurd hs hsearch⟩

theorem handlePrompt_typed (ch : ℤ) : Typed (handlePrompt env config state rows ch).state := by
  have hedit := hstate.buffer.edit ch
  unfold handlePrompt
  split
  · exact escapePrompt_typed hstate
  · split
    · exact confirmPrompt_typed env config hstate
    · unfold editText at hedit
      split
      · rename_i hback
        rw [if_pos hback] at hedit
        exact updateLivePrompt_typed rows hstate hedit
      · rename_i hback
        rw [if_neg hback] at hedit
        split
        · have hkey : (sortPromptKey state ch).typing = state.typing :=
            sortPromptKey_cases (P := fun after => after.typing = state.typing) state (fun _ => rfl)
              rfl rfl ch
          have hsorted := hstate.congr hkey
          exact ⟨hsorted.buffer, hsorted.filter, hsorted.search, nofun, nofun⟩
        · split
          · rename_i hprintable
            rw [if_pos hprintable] at hedit
            exact updateLivePrompt_typed rows hstate hedit
          · exact hstate

/-- The main switch opens a prompt with the text that is in force. -/
theorem commandState_typed (hclosed : state.promptMode = .none) (ch : ℤ) (cmd : Command) :
    Typed (commandState env state alpha rows metrics ch cmd) := by
  cases cmd with
  | up => exact hstate.congr (moveKey_typing state alpha rows _ _ rfl)
  | down => exact hstate.congr (moveKey_typing state alpha rows _ _ rfl)
  | pageUp => exact hstate.congr (moveKey_typing state alpha rows _ _ (cycleView_typing env state _))
  | pageDown =>
    exact hstate.congr (moveKey_typing state alpha rows _ _ (cycleView_typing env state _))
  | home =>
    show Typed (homeKey state rows)
    unfold homeKey
    repeat' split
    all_goals exact hstate.congr rfl
  | «end» =>
    show Typed (endKey state alpha rows)
    unfold endKey
    repeat' split
    all_goals exact hstate.congr rfl
  | nextView => exact hstate.congr (cycleView_typing env state 1)
  | previousView => exact hstate.congr (cycleView_typing env state (-1))
  | cycleSort =>
    show Typed (cycleSortKey env state)
    unfold cycleSortKey
    split <;> exact hstate.congr rfl
  | openSearch => exact ⟨hstate.search, hstate.filter, hstate.search, nofun, fun _ => rfl⟩
  | openFilter => exact ⟨hstate.filter, hstate.filter, hstate.search, fun _ => rfl, nofun⟩
  | openSort => exact ⟨hstate.buffer, hstate.filter, hstate.search, nofun, nofun⟩
  | openSignal =>
    have hdefault : Printable (str "15") := by
      intro c hc
      have hdigits : c = '1' ∨ c = '5' := by simpa [str] using hc
      rcases hdigits with rfl | rfl <;> decide
    exact ⟨hdefault, hstate.filter, hstate.search, nofun, nofun⟩
  | clear =>
    refine ⟨hstate.buffer, nofun, nofun, fun hfilter => ?_, fun hsearch => ?_⟩
    · exact absurd (hclosed.symm.trans hfilter) (by decide)
    · exact absurd (hclosed.symm.trans hsearch) (by decide)
  | toggleTree =>
    show Typed (toggleTree env state)
    unfold toggleTree
    split <;> exact hstate.congr rfl
  | openDetail =>
    show Typed (detailKey env state alpha)
    unfold detailKey
    repeat' split
    all_goals exact hstate.congr rfl
  | expandNode =>
    refine hstate.congr (treeKey_typing env state _ fun s => ?_)
    unfold UiState.expandSelected
    split <;> rfl
  | collapseNode =>
    refine hstate.congr (treeKey_typing env state _ fun s => ?_)
    unfold UiState.collapseSelected
    repeat' split
    all_goals rfl
  | toggleNodes => exact hstate.congr (treeKey_typing env state _ fun _ => rfl)
  | other =>
    show Typed (otherKey env state rows ch)
    unfold otherKey UiState.applyPidSearch
    dsimp only
    generalize (if env.now > state.pidSearchDeadline then [] else state.pidSearch) = typed
    repeat' split
    all_goals exact hstate.congr rfl
  | _ => exact hstate.congr rfl

theorem handleInput_typed (ch : ℤ) :
    Typed (handleInput env config state alpha rows metrics ch).state := by
  unfold handleInput
  split
  · dsimp only [result]
    split <;> exact hstate.congr rfl
  · split
    · dsimp only [result]
      split <;> exact hstate.congr rfl
    · split
      · dsimp only [result]
        split <;> exact hstate.congr rfl
      · split
        · exact hstate.congr (handleSetup_typing config state ch)
        · split
          · exact handlePrompt_typed env config rows hstate ch
          · rename_i hprompt
            unfold runCommand
            split
            · exact hstate
            · exact hstate.congr (renice_typing env config state _)
            · exact commandState_typed env alpha rows metrics hstate (not_not.mp hprompt) ch _

end Prompt
end Inputs

/-! ## Runs -/

theorem drawFrame_unframed (σ : StdSort) (ui : Ui) (snapshot : SystemSnapshot) (rows cols : ℤ)
    (now : ℕ) : (drawFrame σ ui snapshot rows cols now).state.unframed = ui.state.unframed :=
  buildFrame_unframed σ _ snapshot ui.snapshotHistory now ui.state

theorem processInput_typed {ui : Ui} (h : Typed ui.state) (frame : Frame) (event : InputEvent)
    (env : InputEnv) : Typed (processInput ui frame event env).state := by
  have hclick := h.congr (translateEvent_typing ui.state frame env.now event)
  unfold processInput
  dsimp only
  split
  · exact hclick
  · exact handleInput_typed env ui.config frame.alpha frame.rows frame.metrics hclick _

section Reached
variable {σ : StdSort} {file : Option Text} {options : SettingOptions} {moves : List Move} {ui : Ui}
  (hreach : Machine.run (step σ) moves (start (runConfig file options)) = some ui)
include hreach

theorem reached_modal : Modal ui.state :=
  Machine.run_keeps (fun _ _ _ => step_modal) (start_modal (runConfig_directed file options)) hreach

theorem reached_buttons : ButtonsOk ui.state :=
  (Machine.run_keeps (fun _ _ _ => step_ok) (start_ok _) hreach).buttons

end Reached

theorem run_typed {σ : StdSort} (config : AppConfig) {moves : List Move} {ui : Ui}
    (hrun : Machine.run (step σ) moves (start config) = some ui) : Typed ui.state := by
  have hstart : Typed (start config).state := ⟨nofun, nofun, nofun, nofun, nofun⟩
  refine loop_keeps (P := fun ui => Typed ui.state) ?_ ?_ hstart hrun
  · exact fun ui snapshot rows cols now h _ =>
      h.congr (typing_of_unframed (drawFrame_unframed σ ui snapshot rows cols now))
  · exact fun ui frame event env h _ _ => processInput_typed h frame event env

end Mtop
