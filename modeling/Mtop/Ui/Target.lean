import Mtop.Ui.Fixed
import Mtop.Ui.Paging

/-! Which process `kill` and `setpriority` are called on, over whole runs of the main loop, against
the row highlighted on the screen. -/
namespace Mtop
open Cxx Machine
set_option autoImplicit false

/-! ## Inputs that act -/

/-- The keys that signal or renice: Enter in the signal prompt, or a bracket with nothing open and
a readable priority. -/
def Requests (state : UiState) (ch : ℤ) (env : InputEnv) : Prop :=
  state.showHelp = false ∧ state.showProcessDetail = false ∧ state.showWorkloadDetail = false ∧
    state.showSetup = false ∧
    ((state.promptMode = .signal ∧ isEnter ch = true) ∨
      (state.promptMode = .none ∧ (ch = key ']' ∨ ch = key '[') ∧
        env.reply.getpriority.isOk = true))

def isRenice : Command → Bool
  | .renice _ => true
  | _ => false

theorem command_renice {ch delta : ℤ} (h : command ch = .renice delta) :
    ch = key ']' ∨ ch = key '[' := by
  have hkeys : ∀ entry ∈ commandKeys, isRenice entry.2 = true →
      ∀ ch ∈ entry.1, ch = key ']' ∨ ch = key '[' := by decide
  unfold command at h
  split at h
  · rename_i entry hentry
    refine hkeys entry (List.mem_of_find?_eq_some hentry) (by rw [h]; rfl) ch ?_
    have := List.find?_some hentry
    simpa using this
  · cases h

theorem command_bracket {ch : ℤ} (h : ch = key ']' ∨ ch = key '[') :
    ∃ delta, command ch = .renice delta := by
  rcases h with rfl | rfl
  · exact ⟨-1, by decide⟩
  · exact ⟨1, by decide⟩

section Handle
variable (env : InputEnv) (config : AppConfig) (state : UiState)

theorem sendSignal_actions (signal : ℤ) :
    ((sendSignalToSelectedProcess env config state signal).actions).map Action.pid =
      state.selectedPid.toList := by
  unfold sendSignalToSelectedProcess
  cases state.selectedPid <;> rfl

theorem renice_actions (delta : ℤ) :
    ((reniceSelectedProcess env config state delta).actions).map Action.pid =
      if env.reply.getpriority.isOk then state.selectedPid.toList else [] := by
  unfold reniceSelectedProcess
  cases hpid : state.selectedPid with
  | none => exact (ite_self []).symm
  | some pid =>
    cases env.reply.getpriority with
    | error reason => rfl
    | ok nice => rfl

theorem handleSetup_actions (ch : ℤ) : (handleSetup config state ch).actions = [] := by
  unfold handleSetup
  repeat' split
  all_goals rfl

theorem isEnter_escape : isEnter keyEscape = false := by decide

/-- The targets of an input: the remembered pid when the input asks for it, else none. -/
theorem handlePrompt_targets (rows : List ProcessRow) (ch : ℤ) :
    ((handlePrompt env config state rows ch).actions).map Action.pid =
      if state.promptMode = .signal ∧ isEnter ch = true then state.selectedPid.toList else [] := by
  unfold handlePrompt
  by_cases hescape : ch = keyEscape
  · rw [if_pos hescape, if_neg (by rw [hescape, isEnter_escape]; exact fun h => nomatch h.2)]
    rfl
  · rw [if_neg hescape]
    by_cases henter : isEnter ch = true
    · rw [if_pos henter]
      unfold confirmPrompt
      cases hmode : state.promptMode with
      | signal =>
        exact (sendSignal_actions env config _ _).trans (if_pos ⟨rfl, henter⟩).symm
      | none => rfl
      | search => rfl
      | filter => rfl
      | sort => rfl
    · have hno : ¬ (state.promptMode = .signal ∧ isEnter ch = true) := fun h => henter h.2
      rw [if_neg henter, if_neg hno]
      repeat' split
      all_goals rfl

end Handle

section Targets
variable (env : InputEnv) (config : AppConfig) (state : UiState) (alpha : AlphaModel)
  (rows : List ProcessRow) (metrics : ProcessViewMetrics)

theorem runCommand_targets (ch : ℤ) :
    ((runCommand env config state alpha rows metrics ch).actions).map Action.pid =
      if (ch = key ']' ∨ ch = key '[') ∧ env.reply.getpriority.isOk = true then
        state.selectedPid.toList
      else [] := by
  by_cases hbracket : ch = key ']' ∨ ch = key '['
  · obtain ⟨delta, hcommand⟩ := command_bracket hbracket
    unfold runCommand
    rw [hcommand]
    dsimp only
    rw [renice_actions]
    simp only [hbracket, true_and]
  · rw [if_neg fun h => hbracket h.1]
    unfold runCommand
    split
    · rfl
    · rename_i delta hcommand
      exact absurd (command_renice hcommand) hbracket
    · rfl

open Classical in
/-- What an input acts on: the remembered pid or nothing. -/
theorem handleInput_targets (ch : ℤ) :
    ((handleInput env config state alpha rows metrics ch).actions).map Action.pid =
      if Requests state ch env then state.selectedPid.toList else [] := by
  unfold handleInput Requests
  by_cases hhelp : state.showHelp = true
  · simp [hhelp, result]
  · by_cases hdetail : state.showProcessDetail = true
    · simp [hhelp, hdetail, result]
    · by_cases hworkload : state.showWorkloadDetail = true
      · simp [hhelp, hdetail, hworkload, result]
      · by_cases hsetup : state.showSetup = true
        · simp [hhelp, hdetail, hworkload, hsetup, handleSetup_actions]
        · by_cases hprompt : state.promptMode = .none
          · simp [hhelp, hdetail, hworkload, hsetup, hprompt, runCommand_targets]
          · simp [hhelp, hdetail, hworkload, hsetup, hprompt, handlePrompt_targets]

end Targets

/-! ## The footer buttons -/

/-- A function key, or nothing. -/
def ButtonEvent (ch : ℤ) : Prop := ch = err ∨ ∃ label ∈ keyLabels, label.2.2 = ch

/-- Before it is drawn a button stands for nothing. -/
def ButtonsOk (state : UiState) : Prop := ∀ button ∈ state.footerButtons, ButtonEvent button.event

theorem ButtonsOk.congr {state state' : UiState} (h : state'.fixed = state.fixed)
    (hb : ButtonsOk state) : ButtonsOk state' := by
  unfold ButtonsOk
  rw [show state'.footerButtons = state.footerButtons from congrArg Prod.snd h]
  exact hb

theorem Requests.not_button {state : UiState} {ch : ℤ} {env : InputEnv} (h : ButtonEvent ch) :
    ¬ Requests state ch env := by
  have hlabels : ∀ label ∈ keyLabels,
      isEnter label.2.2 = false ∧ label.2.2 ≠ key ']' ∧ label.2.2 ≠ key '[' := by decide
  obtain ⟨henter, hright, hleft⟩ : isEnter ch = false ∧ ch ≠ key ']' ∧ ch ≠ key '[' := by
    rcases h with rfl | ⟨label, hlabel, rfl⟩
    · decide
    · exact hlabels label hlabel
  rintro ⟨-, -, -, -, ⟨-, hyes⟩ | ⟨-, hbracket | hbracket, -⟩⟩
  · rw [henter] at hyes
    cases hyes
  · exact hright hbracket
  · exact hleft hbracket

theorem Requests.not_mouse {state : UiState} {env : InputEnv} : ¬ Requests state keyMouse env := by
  rintro ⟨-, -, -, -, ⟨-, hyes⟩ | ⟨-, hbracket | hbracket, -⟩⟩
  · exact absurd hyes (by decide)
  · exact absurd hbracket (by decide)
  · exact absurd hbracket (by decide)

theorem clickHeader_fixed (layout : WindowLayout) (now : ℕ) (state : UiState)
    (event : MouseEvent) : (clickHeader layout now state event).1.fixed = state.fixed := by
  unfold clickHeader
  repeat' split
  all_goals rfl

theorem clickFooter_event {layout : WindowLayout} {state : UiState} (hb : ButtonsOk state)
    (event : MouseEvent) : ButtonEvent (clickFooter layout state event) := by
  unfold clickFooter
  split
  · split
    · rename_i button hbutton
      exact hb button (List.mem_of_find?_eq_some hbutton)
    · exact .inl rfl
  · exact .inl rfl

/-- A click is a selection, a sort or a function key. -/
theorem synthesize_event {layout : WindowLayout} {state : UiState} (hb : ButtonsOk state)
    (now : ℕ) (rows : List ProcessRow) (metrics : ProcessViewMetrics) (event : MouseEvent) :
    ButtonEvent (synthesizeMouseEvent layout now state rows metrics event).2 := by
  have hafter : ButtonsOk (clickHeader layout now state event).1 :=
    hb.congr (clickHeader_fixed layout now state event)
  unfold synthesizeMouseEvent
  rcases hclick : clickHeader layout now state event with ⟨after, ends⟩
  rw [hclick] at hafter
  cases ends with
  | true => exact .inl rfl
  | false =>
    dsimp only
    split
    · exact .inl rfl
    · exact clickFooter_event hafter event

open Classical in
/-- Mouse events act on no process; a key acts on the remembered pid or on none. -/
theorem processInput_targets {ui : Ui} (hb : ButtonsOk ui.state) (frame : Frame)
    (event : InputEvent) (env : InputEnv) :
    ((processInput ui frame event env).actions).map Action.pid =
      if Requests ui.state event.key env then ui.state.selectedPid.toList else [] := by
  unfold processInput
  by_cases hmouse : event.key = keyMouse
  · rw [hmouse, if_neg Requests.not_mouse]
    have hbutton : ButtonEvent (translateEvent frame env.now ui.state event).2 := by
      unfold translateEvent
      rw [if_pos hmouse]
      split
      · exact synthesize_event hb env.now frame.rows frame.metrics _
      · exact .inl rfl
    dsimp only
    split
    · rfl
    · rw [handleInput_targets, if_neg (Requests.not_button hbutton)]
  · have htranslate : translateEvent frame env.now ui.state event = (ui.state, event.key) := by
      unfold translateEvent
      rw [if_neg hmouse]
    rw [htranslate]
    dsimp only
    split
    · rename_i herr
      rw [if_neg (Requests.not_button (.inl herr))]
      rfl
    · rw [handleInput_targets]

/-! ## Runs -/

/-- What holds between the inputs of a run: the buttons are function keys, the frame was drawn by
`showRows`, and before the first frame nothing is selected. -/
structure UiOk (ui : Ui) : Prop where
  buttons : ButtonsOk ui.state
  drawn : ∀ frame, ui.frame = some frame →
    ∃ layout alpha rows before, frame = showRows layout alpha rows before
  blank : ui.frame = none → ui.state.selectedPid = none

theorem start_ok (config : AppConfig) : UiOk (start config) := by
  have hframe : (start config).frame = none := rfl
  refine ⟨fun button hbutton => ?_,
    fun frame h => absurd (hframe.symm.trans h) (Option.some_ne_none frame).symm, fun _ => rfl⟩
  have hblank : button = {} :=
    List.eq_of_mem_replicate (show button ∈ List.replicate functionKeyCount {} from hbutton)
  rw [hblank]
  exact .inl rfl

theorem buildFrame_buttonsOk (σ : StdSort) (layout : WindowLayout) (snapshot : SystemSnapshot)
    (priorHistory : List SystemSnapshot) (now : ℕ) {state : UiState} (hb : ButtonsOk state) :
    ButtonsOk (buildFrame σ layout snapshot priorHistory now state).2 := by
  unfold buildFrame
  refine ButtonsOk.congr (drawPopups_fixed _ _ _) ?_
  have hshown : ButtonsOk (showRows layout (frameAlpha σ snapshot priorHistory now state).1
      (frameRows σ snapshot (frameAlpha σ snapshot priorHistory now state).2)
      ((frameAlpha σ snapshot priorHistory now state).2.applySearchRequest now
        (frameRows σ snapshot (frameAlpha σ snapshot priorHistory now state).2))).shown :=
    hb.congr (((showRows_fixed _ _ _ layout).trans (applySearchRequest_fixed _ _ now)).trans
      (frameAlpha_fixed state σ snapshot priorHistory now))
  exact drawKeyLabels_event layout.cols (fun label hlabel => .inr ⟨label, hlabel, rfl⟩) 0 hshown

theorem translateEvent_fixed (frame : Frame) (now : ℕ) (state : UiState) (event : InputEvent) :
    (translateEvent frame now state event).1.fixed = state.fixed := by
  unfold translateEvent
  split
  · split
    · rename_i mouse _
      unfold synthesizeMouseEvent
      have hheader := clickHeader_fixed frame.layout now state mouse
      rcases hclick : clickHeader frame.layout now state mouse with ⟨after, ends⟩
      rw [hclick] at hheader
      cases ends with
      | true => exact hheader
      | false =>
        dsimp only
        split
        · exact hheader
        · exact hheader
    · rfl
  · rfl

theorem processInput_fixed (ui : Ui) (frame : Frame) (event : InputEvent) (env : InputEnv) :
    (processInput ui frame event env).state.fixed = ui.state.fixed := by
  unfold processInput
  dsimp only
  split
  · exact translateEvent_fixed frame env.now ui.state event
  · exact (handleInput_fixed env ui.config _ _ _ _ _).trans
      (translateEvent_fixed frame env.now ui.state event)

theorem step_ok {σ : StdSort} {m : Move} {ui ui' : Ui} (hok : UiOk ui)
    (h : step σ m ui = some ui') : UiOk ui' := by
  cases m with
  | frame snapshot rows cols now =>
    simp only [step, Option.ite_none_right_eq_some, Option.some.injEq] at h
    obtain ⟨-, rfl⟩ := h
    refine ⟨buildFrame_buttonsOk σ _ snapshot ui.snapshotHistory now hok.buttons, ?_, nofun⟩
    intro frame hframe
    cases hframe
    exact ⟨_, _, _, _, rfl⟩
  | input event env =>
    simp only [step] at h
    split at h
    · rename_i frame hframe
      simp only [Option.ite_none_right_eq_some, Option.some.injEq] at h
      obtain ⟨-, rfl⟩ := h
      exact ⟨hok.buttons.congr (processInput_fixed ui frame event env), hok.drawn,
        fun hnone => absurd (hframe.symm.trans hnone) nofun⟩
    · cases h

/-! ## The target on the screen -/

/-- The step calls `kill` and `setpriority` on the highlighted process only. -/
def TargetsHighlighted (ui : Ui) (m : Move) : Prop :=
  ∀ action ∈ actions ui m, ∃ frame, ui.frame = some frame ∧ frame.highlighted = some action.pid

/-- The remembered process is the one the frame shows as selected: in Beta the frame is a process
view that still lists the process, and nothing was selected since; in Alpha the process is that of
the row at `workload_index`. -/
def SelectionShown (frame : Frame) (state : UiState) : Prop :=
  match frame.shown.viewProfile with
  | .beta =>
    frame.shown.viewMode ≠ .systemIo ∧ state.selectedPid = frame.shown.selectedPid ∧
      ∃ row ∈ frame.rows, state.selectedPid = some row.process.pid
  | .alpha =>
    8 ≤ frame.layout.processHeight ∧
      ∃ row, rowAt frame.alpha.processRows frame.shown.workloadIndex = some row ∧
        state.selectedPid = some row.process.pid

/-- A step that signals or renices finds its process shown as selected. -/
def ActsOnShown (ui : Ui) (m : Move) : Prop :=
  ∀ event env, m = .input event env → Requests ui.state event.key env →
    ui.state.selectedPid = none ∨
      ∃ frame, ui.frame = some frame ∧ SelectionShown frame ui.state

theorem selectionShown_iff (layout : WindowLayout) (alpha : AlphaModel) (rows : List ProcessRow)
    (before : UiState) {state : UiState} {pid : ℤ} (hpid : state.selectedPid = some pid) :
    (showRows layout alpha rows before).highlighted = some pid ↔
      SelectionShown (showRows layout alpha rows before) state := by
  unfold SelectionShown
  cases hprofile : (showRows layout alpha rows before).shown.viewProfile with
  | alpha =>
    rw [highlighted_alpha layout alpha rows before hprofile, hpid]
    dsimp only
    split
    · exact iff_of_false nofun fun h => absurd h.1 (show ¬ 8 ≤ layout.processHeight by omega)
    · rw [Option.map_eq_some_iff]
      constructor
      · rintro ⟨row, hrow, heq⟩
        exact ⟨show 8 ≤ layout.processHeight by omega, row, hrow, congrArg some heq.symm⟩
      · rintro ⟨-, row, hrow, heq⟩
        exact ⟨row, hrow, (Option.some.inj heq).symm⟩
  | beta =>
    rw [highlighted_beta layout alpha rows before hprofile, hpid]
    dsimp only
    split
    · rename_i hview
      exact iff_of_false nofun fun h => h.1 hview
    · rename_i hview
      rw [showRows_selectedIndex, pidAt_selectedProcessIndex]
      constructor
      · rintro ⟨hshown, hmem⟩
        obtain ⟨row, hrow, heq⟩ := List.mem_map.mp hmem
        exact ⟨hview, hshown.symm, row, hrow, congrArg some heq.symm⟩
      · rintro ⟨-, hshown, row, hrow, heq⟩
        exact ⟨hshown.symm, List.mem_map.mpr ⟨row, hrow, (Option.some.inj heq).symm⟩⟩

open Classical in
theorem actions_targets {ui : Ui} (hok : UiOk ui) {frame : Frame} (hframe : ui.frame = some frame)
    (event : InputEvent) (env : InputEnv) :
    (actions ui (.input event env)).map Action.pid =
      if Requests ui.state event.key env then ui.state.selectedPid.toList else [] := by
  unfold actions
  rw [hframe]
  exact processInput_targets hok.buttons frame event env

theorem targetsHighlighted_iff_pids (ui : Ui) (m : Move) :
    TargetsHighlighted ui m ↔ ∀ pid ∈ (actions ui m).map Action.pid,
      ∃ frame, ui.frame = some frame ∧ frame.highlighted = some pid := by
  rw [List.forall_mem_map]
  rfl

/-- One step. -/
theorem targetsHighlighted_iff {ui : Ui} (hok : UiOk ui) (m : Move) :
    TargetsHighlighted ui m ↔ ActsOnShown ui m := by
  cases m with
  | frame snapshot rows cols now => exact iff_of_true nofun nofun
  | input event env =>
    cases hframe : ui.frame with
    | none =>
      refine iff_of_true ?_ fun _ _ _ _ => .inl (hok.blank hframe)
      unfold TargetsHighlighted actions
      rw [hframe]
      exact nofun
    | some frame =>
      rw [targetsHighlighted_iff_pids, actions_targets hok hframe]
      unfold ActsOnShown
      by_cases hrequest : Requests ui.state event.key env
      · rw [if_pos hrequest]
        cases hpid : ui.state.selectedPid with
        | none => exact iff_of_true nofun fun _ _ _ _ => .inl rfl
        | some pid =>
          obtain ⟨layout, alpha, rows, before, rfl⟩ := hok.drawn frame hframe
          have hshown := selectionShown_iff layout alpha rows before hpid
          constructor
          · intro htarget _ _ _ _
            obtain ⟨_, hsome, hhigh⟩ := htarget pid List.mem_cons_self
            rw [hframe] at hsome
            cases hsome
            exact .inr ⟨_, hframe, hshown.mp hhigh⟩
          · intro hcond target htarget
            obtain rfl : target = pid := List.mem_singleton.mp htarget
            rcases hcond event env rfl hrequest with hnone | ⟨_, hsome, hselection⟩
            · cases hnone
            · rw [hframe] at hsome
              cases hsome
              exact ⟨_, hframe, hshown.mpr hselection⟩
      · rw [if_neg hrequest]
        refine iff_of_true nofun fun _ _ hmove hyes => ?_
        cases hmove
        exact absurd hyes hrequest

/-- In every run, from any configuration and over any snapshots, keys and clicks, every signal and
every renice goes to the process highlighted on the screen exactly when each acting step finds its
process shown as selected. -/
theorem run_targets_iff (σ : StdSort) (config : AppConfig) (moves : List Move) :
    Always (step σ) TargetsHighlighted moves (start config) ↔
      Always (step σ) ActsOnShown moves (start config) :=
  always_congr (fun _ _ _ => step_ok) (fun _ m hok => targetsHighlighted_iff hok m) moves
    (start_ok config)

/-! ## A process that exits while the signal prompt is open -/

def listing (pid : ℤ) : SystemSnapshot := { processes := [{ pid }] }

def pressed (ch : ℤ) : Move := .input { key := ch } {}

/-- Beta: select process 10, open the signal prompt, and let the next sample list only process
20. -/
def exitedRun : List Move :=
  [.frame (listing 10) 40 120 0, pressed keyDown, pressed (key 'k')] ++
    List.replicate 18 (pressed err) ++ [.frame (listing 20) 40 120 1000]

/-- Enter then signals process 10, with no row highlighted on the screen. -/
theorem exitedRun_kills :
    ∃ ui, run (step .insertion) exitedRun (start { viewProfile := .beta }) = some ui ∧
      ui.frame.map Frame.highlighted = some none ∧
      actions ui (pressed keyEnter) = [.kill 10 15] ∧
      ¬ Always (step .insertion) TargetsHighlighted (exitedRun ++ [pressed keyEnter])
        (start { viewProfile := .beta }) := by
  have hrun : ((run (step .insertion) exitedRun (start { viewProfile := .beta })).map fun ui =>
      (ui.frame.map Frame.highlighted, actions ui (pressed keyEnter))) =
        some (some none, [.kill 10 15]) := by decide +kernel
  obtain ⟨ui, hui, heq⟩ := Option.map_eq_some_iff.mp hrun
  obtain ⟨hhigh, hactions⟩ := Prod.mk.inj heq
  refine ⟨ui, hui, hhigh, hactions, fun hall => ?_⟩
  obtain ⟨frame, hframe, htarget⟩ := hall.last hui (.kill 10 15)
    (by rw [hactions]; exact List.mem_cons_self)
  rw [hframe, Option.map_some, htarget] at hhigh
  cases hhigh

end Mtop
