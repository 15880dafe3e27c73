import Mtop.Ui.Typing

/-! Typing over whole runs: frames come at any time between the keys, clicks edit nothing, Escape
closes whatever is open, and any printable text can be typed. -/
namespace Mtop
open Cxx
set_option autoImplicit false

/-! ## Keys of a run -/

/-- The keys of the inputs, `KEY_MOUSE` for a click and `ERR` for none. -/
def typedKeys (moves : List Move) : List ℤ :=
  moves.filterMap fun
    | .frame .. => none
    | .input event _ => some event.key

/-- What holds of the keys to come and the state is passed on by frames and by each key in turn. -/
theorem run_keys {σ : StdSort} {P : List ℤ → Ui → Prop}
    (hframe : ∀ keys ui snapshot rows cols now, P keys ui → ui.FrameDue →
      P keys (drawFrame σ ui snapshot rows cols now))
    (hinput : ∀ keys ui frame event env, P (event.key :: keys) ui → ui.frame = some frame →
      ui.InputDue → P keys (ui.afterInput (processInput ui frame event env)))
    {moves : List Move} {ui ui' : Ui} (h : P (typedKeys moves) ui)
    (hrun : Machine.run (step σ) moves ui = some ui') : P [] ui' := by
  induction moves generalizing ui with
  | nil =>
    cases hrun
    exact h
  | cons move moves ih =>
    obtain ⟨mid, hstep, hrest⟩ := Machine.run_cons hrun
    refine ih ?_ hrest
    cases move with
    | frame snapshot rows cols now =>
      obtain ⟨hdue, rfl⟩ := step_frame_iff.mp hstep
      exact hframe _ ui snapshot rows cols now h hdue
    | input event env =>
      obtain ⟨frame, hshown, hdue, rfl⟩ := step_input_iff.mp hstep
      exact hinput _ ui frame event env h hshown hdue

/-- One key after which something else holds, with frames before and after it. -/
theorem run_key {σ : StdSort} {A B : Ui → Prop} {ch : ℤ}
    (hA : ∀ ui snapshot rows cols now, A ui → A (drawFrame σ ui snapshot rows cols now))
    (hkey : ∀ ui frame event env, A ui → event.key = ch →
      B (ui.afterInput (processInput ui frame event env)))
    (hB : ∀ ui snapshot rows cols now, B ui → B (drawFrame σ ui snapshot rows cols now))
    {moves : List Move} {ui ui' : Ui} (h : A ui) (hmoves : typedKeys moves = [ch])
    (hrun : Machine.run (step σ) moves ui = some ui') : B ui' := by
  have hlast := run_keys (P := fun keys ui => (keys = [ch] ∧ A ui) ∨ (keys = [] ∧ B ui))
    ?_ ?_ (.inl ⟨hmoves, h⟩) hrun
  · exact (hlast.resolve_left fun h => nomatch h.1).2
  · rintro keys ui snapshot rows cols now (⟨hkeys, h⟩ | ⟨hkeys, h⟩) -
    · exact .inl ⟨hkeys, hA ui snapshot rows cols now h⟩
    · exact .inr ⟨hkeys, hB ui snapshot rows cols now h⟩
  · rintro keys ui frame event env (⟨hkeys, h⟩ | ⟨hkeys, h⟩) - -
    · obtain ⟨hch, hnil⟩ := List.cons.inj hkeys
      exact .inr ⟨hnil, hkey ui frame event env h hch⟩
    · cases hkeys

/-! ## Reaching the keyboard -/

theorem run_polls {σ : StdSort} (config : AppConfig) {moves : List Move} {ui : Ui}
    (hrun : Machine.run (step σ) moves (start config) = some ui) : ui.polls ≤ inputsPerFrame := by
  refine loop_keeps (P := fun ui => ui.polls ≤ inputsPerFrame) ?_ ?_ (Nat.zero_le _) hrun
  · exact fun ui snapshot rows cols now _ _ => Nat.zero_le _
  · exact fun ui frame event env _ _ hdue => hdue.2

/-- A running interface takes any key, after one frame at most. -/
theorem exists_run_key (σ : StdSort) {ui : Ui} (hrunning : ui.running = true)
    (hpolls : ui.polls ≤ inputsPerFrame) (snapshot : SystemSnapshot) (rows cols : ℤ) (now : ℕ)
    (ch : ℤ) :
    ∃ moves ui', Machine.run (step σ) moves ui = some ui' ∧ typedKeys moves = [ch] ∧
      moves.length ≤ 2 ∧ moves ⊆ [.frame snapshot rows cols now, .input { key := ch } {}] ∧
      ui'.polls ≤ inputsPerFrame := by
  have hinput : ∀ (ui : Ui) (frame : Frame), ui.frame = some frame → ui.InputDue →
      ∃ ui', step σ (.input { key := ch } {}) ui = some ui' ∧ ui'.polls ≤ inputsPerFrame :=
    fun ui frame hframe hdue => ⟨_, step_input_iff.mpr ⟨frame, hframe, hdue, rfl⟩, hdue.2⟩
  by_cases hdue : ui.frame.isNone = true ∨ ui.polls = inputsPerFrame
  · have hdrawn : step σ (.frame snapshot rows cols now) ui =
        some (drawFrame σ ui snapshot rows cols now) := step_frame_iff.mpr ⟨⟨hrunning, hdue⟩, rfl⟩
    obtain ⟨ui', hstep, hpolls'⟩ := hinput (drawFrame σ ui snapshot rows cols now) _ rfl
      ⟨hrunning, show 0 < inputsPerFrame by decide⟩
    refine ⟨[.frame snapshot rows cols now, .input { key := ch } {}], ui', ?_, rfl, Nat.le_refl 2,
      List.Subset.refl _, hpolls'⟩
    rw [Machine.run, hdrawn, Option.bind_some, Machine.run, hstep]
    rfl
  · obtain ⟨hshown, hrest⟩ := not_or.mp hdue
    obtain ⟨frame, hframe⟩ : ∃ frame, ui.frame = some frame :=
      Option.ne_none_iff_exists'.mp fun hnone => hshown (Option.isNone_iff_eq_none.mpr hnone)
    obtain ⟨ui', hstep, hpolls'⟩ := hinput ui frame hframe ⟨hrunning, lt_of_le_of_ne hpolls hrest⟩
    refine ⟨[.input { key := ch } {}], ui', ?_, rfl, Nat.le_succ 1, List.subset_cons_self _ _, hpolls'⟩
    rw [Machine.run, hstep]
    rfl

/-! ## With nothing open -/

/-- Nothing is open in front of the views. -/
structure Closed (filter search : Text) (ui : Ui) : Prop where
  running : ui.running = true
  modal : Modal ui.state
  buttons : ButtonsOk ui.state
  closed : ui.state.openCount = 0
  filter : ui.state.filter = filter
  search : ui.state.search = search

section Closed
variable {σ : StdSort} {filter search : Text} {ui : Ui}

theorem Closed.frame (h : Closed filter search ui) (snapshot : SystemSnapshot) (rows cols : ℤ)
    (now : ℕ) : Closed filter search (drawFrame σ ui snapshot rows cols now) := by
  have htyping := typing_of_unframed (drawFrame_unframed σ ui snapshot rows cols now)
  simp only [UiState.typing, Prod.mk.injEq] at htyping
  constructor
  · exact h.running
  · exact buildFrame_modal σ _ snapshot ui.snapshotHistory now h.modal
  · exact buildFrame_buttonsOk σ _ snapshot ui.snapshotHistory now h.buttons
  · exact buildFrame_closed σ _ snapshot ui.snapshotHistory now ui.state h.closed
  · exact htyping.2.2.1.trans h.filter
  · exact htyping.2.2.2.trans h.search

/-- A key that is not a click reaches `handle_input` with the state as it is. -/
theorem processInput_key (ui : Ui) (frame : Frame) {event : InputEvent} (env : InputEnv) {ch : ℤ}
    (hch : event.key = ch) (hmouse : ch ≠ keyMouse) (herr : ch ≠ err) :
    processInput ui frame event env =
      handleInput env ui.config ui.state frame.alpha frame.rows frame.metrics ch := by
  have htranslate : translateEvent frame env.now ui.state event = (ui.state, ch) := by
    unfold translateEvent
    rw [hch, if_neg hmouse]
  unfold processInput
  rw [htranslate]
  exact if_neg herr

/-- What is left when `state` has been closed by Escape. -/
def EscapedTo (state after : UiState) : Prop :=
  after.openCount = 0 ∧ after.filter = (if state.promptMode = .filter then [] else state.filter) ∧
    after.search = if state.promptMode = .search then [] else state.search

/-- Closing the popup that is open leaves nothing open; no prompt was. -/
theorem EscapedTo.of_popup {state after : UiState} (hcount : after.openCount = 0)
    (htyping : after.typing = state.typing) : EscapedTo state after := by
  simp only [UiState.typing, Prod.mk.injEq] at htyping
  obtain ⟨hmode, -, hfilter, hsearch⟩ := htyping
  have hnone : state.promptMode = .none := hmode.symm.trans (openCount_eq_zero.mp hcount).2.2.2.2
  refine ⟨hcount, hfilter.trans ?_, hsearch.trans ?_⟩
  · rw [hnone, if_neg (by decide)]
  · rw [hnone, if_neg (by decide)]

section Close
variable {state : UiState} (h : state.openCount ≤ 1)
include h

theorem closeHelp_closed (hopen : state.showHelp = true) :
    { state with showHelp := false }.openCount = 0 := by
  unfold UiState.openCount at h ⊢
  rw [hopen, Bool.toNat_true] at h
  dsimp only
  rw [Bool.toNat_false]
  omega

theorem closeProcessDetail_closed (hopen : state.showProcessDetail = true) :
    { state with showProcessDetail := false }.openCount = 0 := by
  unfold UiState.openCount at h ⊢
  rw [hopen, Bool.toNat_true] at h
  dsimp only
  rw [Bool.toNat_false]
  omega

theorem closeWorkloadDetail_closed (hopen : state.showWorkloadDetail = true) :
    { state with showWorkloadDetail := false }.openCount = 0 := by
  unfold UiState.openCount at h ⊢
  rw [hopen, Bool.toNat_true] at h
  dsimp only
  rw [Bool.toNat_false]
  omega

theorem closeSetup_closed (hopen : state.showSetup = true) :
    { state with showSetup := false }.openCount = 0 := by
  unfold UiState.openCount at h ⊢
  rw [hopen, Bool.toNat_true] at h
  dsimp only
  rw [Bool.toNat_false]
  omega

end Close

/-- Only one thing is open, so Escape closes it; a text prompt takes its text with it. -/
theorem handleInput_escape (env : InputEnv) (config : AppConfig) {state : UiState}
    (h : state.openCount ≤ 1) (alpha : AlphaModel) (rows : List ProcessRow)
    (metrics : ProcessViewMetrics) :
    (handleInput env config state alpha rows metrics keyEscape).running = true ∧
      EscapedTo state (handleInput env config state alpha rows metrics keyEscape).state := by
  have hclose : closesPopup keyEscape = true := by decide
  unfold handleInput
  by_cases hhelp : state.showHelp = true
  · rw [if_pos hhelp, if_pos (by rw [hclose]; rfl)]
    exact ⟨rfl, .of_popup (closeHelp_closed h hhelp) rfl⟩
  rw [if_neg hhelp]
  by_cases hprocess : state.showProcessDetail = true
  · rw [if_pos hprocess, if_pos (by rw [hclose]; rfl)]
    exact ⟨rfl, .of_popup (closeProcessDetail_closed h hprocess) rfl⟩
  rw [if_neg hprocess]
  by_cases hworkload : state.showWorkloadDetail = true
  · rw [if_pos hworkload, if_pos (by rw [hclose]; rfl)]
    exact ⟨rfl, .of_popup (closeWorkloadDetail_closed h hworkload) rfl⟩
  rw [if_neg hworkload]
  by_cases hsetup : state.showSetup = true
  · rw [if_pos hsetup]
    unfold handleSetup
    rw [if_pos (.inl rfl)]
    exact ⟨rfl, .of_popup (closeSetup_closed h hsetup) rfl⟩
  rw [if_neg hsetup]
  have hpopups : ∀ {after : UiState}, after.showHelp = state.showHelp →
      after.showSetup = state.showSetup → after.showProcessDetail = state.showProcessDetail →
      after.showWorkloadDetail = state.showWorkloadDetail → after.promptMode = .none →
      after.openCount = 0 := by
    intro after h1 h2 h3 h4 h5
    rw [openCount_eq_zero, h1, h2, h3, h4]
    exact ⟨Bool.eq_false_of_not_eq_true hhelp, Bool.eq_false_of_not_eq_true hsetup,
      Bool.eq_false_of_not_eq_true hprocess, Bool.eq_false_of_not_eq_true hworkload, h5⟩
  by_cases hprompt : state.promptMode ≠ .none
  · rw [if_pos hprompt]
    unfold handlePrompt
    rw [if_pos rfl]
    unfold escapePrompt
    cases hmode : state.promptMode with
    | none => exact absurd hmode hprompt
    | filter => exact ⟨rfl, hpopups rfl rfl rfl rfl rfl, by rw [hmode]; exact ⟨rfl, rfl⟩⟩
    | search => exact ⟨rfl, hpopups rfl rfl rfl rfl rfl, by rw [hmode]; exact ⟨rfl, rfl⟩⟩
    | sort => exact ⟨rfl, hpopups rfl rfl rfl rfl rfl, by rw [hmode]; exact ⟨rfl, rfl⟩⟩
    | signal => exact ⟨rfl, hpopups rfl rfl rfl rfl rfl, by rw [hmode]; exact ⟨rfl, rfl⟩⟩
  · rw [if_neg hprompt]
    have hother : command keyEscape = .other := by decide
    have hkey : otherKey env state rows keyEscape = state := by
      unfold otherKey
      exact if_neg (by rw [show (Char.ofNat (keyEscape % 256).toNat).isDigit = false by decide,
        Bool.and_false]; decide)
    unfold runCommand
    rw [hother]
    show true = true ∧ EscapedTo state (otherKey env state rows keyEscape)
    rw [hkey]
    exact ⟨rfl, .of_popup (hpopups rfl rfl rfl rfl (not_not.mp hprompt)) rfl⟩

/-- Escape, with any frames around it, closes whatever is open. -/
theorem run_escape (hrunning : ui.running = true) (hmodal : Modal ui.state)
    (hbuttons : ButtonsOk ui.state) {moves : List Move} (hmoves : typedKeys moves = [keyEscape]) {ui' : Ui}
    (hrun : Machine.run (step σ) moves ui = some ui') :
    Closed (if ui.state.promptMode = .filter then [] else ui.state.filter)
      (if ui.state.promptMode = .search then [] else ui.state.search) ui' := by
  refine run_key (A := fun mid => mid.running = true ∧ Modal mid.state ∧
    ButtonsOk mid.state ∧ mid.state.typing = ui.state.typing) (B := Closed _ _) ?_ ?_
    (fun _ snapshot rows cols now h => h.frame snapshot rows cols now)
    ⟨hrunning, hmodal, hbuttons, rfl⟩ hmoves hrun
  · rintro mid snapshot rows cols now ⟨hmid, hmodal, hbuttons, htyping⟩
    refine ⟨hmid, buildFrame_modal σ _ snapshot mid.snapshotHistory now hmodal,
      buildFrame_buttonsOk σ _ snapshot mid.snapshotHistory now hbuttons, ?_⟩
    exact (typing_of_unframed (drawFrame_unframed σ mid snapshot rows cols now)).trans htyping
  · rintro mid frame event env ⟨-, hmodal, hbuttons, htyping⟩ hkey
    have hinput := processInput_key mid frame env hkey (by decide) (by decide)
    obtain ⟨hrunning, hclosed, hfilter, hsearch⟩ := handleInput_escape env mid.config
      hmodal.exclusive frame.alpha frame.rows frame.metrics
    simp only [UiState.typing, Prod.mk.injEq] at htyping
    obtain ⟨hmode, -, hfilter', hsearch'⟩ := htyping
    rw [hmode, hfilter'] at hfilter
    rw [hmode, hsearch'] at hsearch
    rw [← hinput] at hrunning hclosed hfilter hsearch
    exact ⟨hrunning, processInput_modal hmodal frame event env,
      hbuttons.congr (processInput_fixed mid frame event env), hclosed, hfilter, hsearch⟩

end Closed

/-- A run of keys is a run of the first of them and one of the rest. -/
theorem split_keys {σ : StdSort} {moves : List Move} {ui ui' : Ui} (first rest : List ℤ)
    (hrun : Machine.run (step σ) moves ui = some ui') (hmoves : typedKeys moves = first ++ rest) :
    ∃ moves₁ moves₂ mid, moves = moves₁ ++ moves₂ ∧ typedKeys moves₁ = first ∧
      typedKeys moves₂ = rest ∧ Machine.run (step σ) moves₁ ui = some mid ∧
      Machine.run (step σ) moves₂ mid = some ui' := by
  obtain ⟨moves₁, moves₂, rfl, hfirst, hrest⟩ := List.filterMap_eq_append_iff.mp hmoves
  rw [Machine.run_append] at hrun
  obtain ⟨mid, hmid, hlast⟩ := Option.bind_eq_some_iff.mp hrun
  exact ⟨moves₁, moves₂, mid, rfl, hfirst, hrest, hmid, hlast⟩

theorem join_keys {σ : StdSort} {moves₁ moves₂ : List Move} {ui mid ui' : Ui}
    (h₁ : Machine.run (step σ) moves₁ ui = some mid)
    (h₂ : Machine.run (step σ) moves₂ mid = some ui') :
    Machine.run (step σ) (moves₁ ++ moves₂) ui = some ui' ∧
      typedKeys (moves₁ ++ moves₂) = typedKeys moves₁ ++ typedKeys moves₂ := by
  refine ⟨?_, List.filterMap_append⟩
  rw [Machine.run_append, h₁]
  exact h₂

/-- The way out: after Escape and `F10` the program ends, and these two keys can be pressed from any
reachable state, with one frame at most before each. -/
theorem quit_from_anywhere (σ : StdSort) (file : Option Text) (options : SettingOptions)
    {before : List Move} {ui : Ui}
    (hreach : Machine.run (step σ) before (start (runConfig file options)) = some ui)
    (hrunning : ui.running = true) :
    (∀ moves ui', Machine.run (step σ) moves ui = some ui' →
      typedKeys moves = [keyEscape, keyF 10] → ui'.running = false) ∧
    ∀ (snapshot : SystemSnapshot) (rows cols : ℤ) (now : ℕ), ∃ moves ui',
      Machine.run (step σ) moves ui = some ui' ∧ typedKeys moves = [keyEscape, keyF 10] ∧
        moves.length ≤ 4 ∧ ∀ move ∈ moves, move = .frame snapshot rows cols now ∨
          move = .input { key := keyEscape } {} ∨ move = .input { key := keyF 10 } {} := by
  have hmodal := reached_modal hreach
  have hbuttons := reached_buttons hreach
  have hpolls := run_polls (runConfig file options) hreach
  have hquit : ∀ {filter search : Text} {mid ui' : Ui} {moves : List Move},
      Closed filter search mid → typedKeys moves = [keyF 10] →
      Machine.run (step σ) moves mid = some ui' → ui'.running = false := by
    intro filter search mid ui' moves hclosed hmoves hrun
    refine run_key (A := Closed filter search) (B := fun ui => ui.running = false)
      (fun _ snapshot rows cols now h => h.frame snapshot rows cols now) ?_ (fun _ _ _ _ _ h => h)
      hclosed hmoves hrun
    intro ui frame event env hclosed hkey
    obtain ⟨hhelp, hsetup, hprocess, hworkload, hprompt⟩ := openCount_eq_zero.mp hclosed.closed
    show (processInput ui frame event env).running = false
    rw [processInput_key ui frame env hkey (by decide) (by decide)]
    unfold handleInput runCommand
    rw [hhelp, hprocess, hworkload, hsetup, if_neg (not_not.mpr hprompt),
      show command (keyF 10) = .quit by decide]
    rfl
  constructor
  · intro moves ui' hrun hmoves
    obtain ⟨moves₁, moves₂, mid, -, hfirst, hrest, hmid, hlast⟩ :=
      split_keys [keyEscape] [keyF 10] hrun hmoves
    exact hquit (run_escape hrunning hmodal hbuttons hfirst hmid) hrest hlast
  · intro snapshot rows cols now
    obtain ⟨moves₁, mid, hmid, hfirst, hlength₁, hmem₁, hpolls₁⟩ :=
      exists_run_key σ hrunning hpolls snapshot rows cols now keyEscape
    have hclosed := run_escape hrunning hmodal hbuttons hfirst hmid
    obtain ⟨moves₂, ui', hlast, hrest, hlength₂, hmem₂, -⟩ :=
      exists_run_key σ hclosed.running hpolls₁ snapshot rows cols now (keyF 10)
    obtain ⟨hrun, hkeys⟩ := join_keys hmid hlast
    refine ⟨moves₁ ++ moves₂, ui', hrun, ?_, ?_, fun move hmove => ?_⟩
    · rw [hkeys, hfirst, hrest]
      rfl
    · rw [List.length_append]
      omega
    · rcases List.mem_append.mp hmove with hmove | hmove
      · have h := hmem₁ hmove
        rw [List.mem_pair] at h
        exact h.imp_right .inl
      · have h := hmem₂ hmove
        rw [List.mem_pair] at h
        exact h.imp_right .inr

theorem quit_from_anywhere_detail :
    ∃ ui, Machine.run (step .insertion) detailRun
        (start (runConfig none { viewProfile := some .beta })) = some ui ∧
      ui.state.showProcessDetail = true ∧ ∃ moves ui', Machine.run (step .insertion) moves ui = some ui' ∧
        ui'.running = false ∧ moves.length ≤ 4 := by
  have hrun : ((Machine.run (step .insertion) detailRun
      (start (runConfig none { viewProfile := some .beta }))).map
        fun ui => (ui.running, ui.state.showProcessDetail)) = some (true, true) := by decide
  obtain ⟨ui, hui, hopen⟩ := Option.map_eq_some_iff.mp hrun
  obtain ⟨hrunning, hdetail⟩ := Prod.mk.inj hopen
  have hquit := quit_from_anywhere .insertion none { viewProfile := some .beta } hui hrunning
  obtain ⟨moves, ui', hlast, hkeys, hlength, -⟩ := hquit.2 {} 40 120 0
  exact ⟨ui, hui, hdetail, moves, ui', hlast, hquit.1 moves ui' hlast hkeys, hlength⟩

/-! ## Typing -/

/-- What is typed while a text prompt is open: its text goes to its own setting at once. -/
def typingWith (mode : PromptMode) (text filter search : Text) : PromptMode × Text × Text × Text :=
  (mode, text, if mode = .filter then text else filter, if mode = .search then text else search)

/-- A text prompt is open with this text, over these settings. -/
structure Prompting (mode : PromptMode) (text filter search : Text) (ui : Ui) : Prop where
  running : ui.running = true
  modal : Modal ui.state
  buttons : ButtonsOk ui.state
  typing : ui.state.typing = typingWith mode text filter search

section Keys
variable (env : InputEnv) (config : AppConfig) (state : UiState) (alpha : AlphaModel)
  (rows : List ProcessRow) (metrics : ProcessViewMetrics)

/-- A prompt has no popup in front of it. -/
theorem popups_of_prompt (h : state.openCount ≤ 1) (hmode : state.promptMode ≠ .none) :
    state.showHelp = false ∧ state.showSetup = false ∧ state.showProcessDetail = false ∧
      state.showWorkloadDetail = false := by
  unfold UiState.openCount at h
  rw [decide_eq_true hmode, Bool.toNat_true] at h
  simp only [← Bool.toNat_eq_zero]
  omega

/-- The open prompt gets the keys. -/
theorem handleInput_prompt (h : state.openCount ≤ 1) (hmode : state.promptMode ≠ .none) (ch : ℤ) :
    handleInput env config state alpha rows metrics ch = handlePrompt env config state rows ch := by
  obtain ⟨hhelp, hsetup, hprocess, hworkload⟩ := popups_of_prompt state h hmode
  unfold handleInput
  rw [hhelp, hsetup, hprocess, hworkload, if_pos hmode]
  rfl

variable {mode : PromptMode} {text filter search : Text}

theorem updateLivePrompt_typing (hmode : mode.isText) (next : Text)
    (h : state.typing = typingWith mode text filter search) :
    ({ state with promptBuffer := next }.updateLivePrompt rows).typing =
      typingWith mode next filter search := by
  unfold typingWith UiState.typing at h
  simp only [Prod.mk.injEq] at h
  obtain ⟨hstate, -, hfilter, hsearch⟩ := h
  unfold UiState.updateLivePrompt
  rcases hmode with rfl | rfl | rfl
  all_goals
    rw [hstate]
    simp only [UiState.typing, typingWith] at hfilter hsearch ⊢
  · split
    · simp [hsearch]
    · simp [hsearch]
  · simp [hfilter]
  · simp [hfilter, hsearch]

/-- Every key but Escape and Enter edits the text, and nothing is sent. -/
theorem handlePrompt_edit (hmode : mode.isText)
    (h : state.typing = typingWith mode text filter search) {ch : ℤ} (hescape : ch ≠ keyEscape)
    (henter : isEnter ch = false) :
    (handlePrompt env config state rows ch).running = true ∧
      (handlePrompt env config state rows ch).actions = [] ∧
      (handlePrompt env config state rows ch).state.typing =
        typingWith mode (editText text ch) filter search := by
  have hstate : state.promptMode = mode := congrArg Prod.fst h
  have hbuffer : state.promptBuffer = text := congrArg (fun t => t.2.1) h
  have hsort : state.promptMode ≠ .sort := by
    rcases hmode with rfl | rfl | rfl <;> rw [hstate] <;> decide
  unfold handlePrompt editText
  rw [if_neg hescape, henter, if_neg Bool.false_ne_true]
  split
  · rw [← hbuffer]
    exact ⟨rfl, rfl, updateLivePrompt_typing state rows hmode _ h⟩
  · split
    · rw [← hbuffer]
      exact ⟨rfl, rfl, updateLivePrompt_typing state rows hmode _ h⟩
    · exact ⟨rfl, rfl, h⟩

end Keys
/-- A function key from the footer edits nothing and closes nothing. -/
theorem ButtonEvent.edit {ch : ℤ} (h : ButtonEvent ch) (text : Text) :
    editText text ch = text ∧ ch ≠ keyEscape ∧ isEnter ch = false := by
  have hlabels : ∀ label ∈ keyLabels, label.2.2 ≠ keyBackspace ∧ 126 < label.2.2 ∧
      label.2.2 ≠ 127 ∧ label.2.2 ≠ keyEscape ∧ isEnter label.2.2 = false := by decide
  rcases h with rfl | ⟨label, hlabel, rfl⟩
  · exact ⟨rfl, by decide, by decide⟩
  · obtain ⟨hback, hlarge, hdelete, hescape, henter⟩ := hlabels label hlabel
    refine ⟨?_, hescape, henter⟩
    unfold editText
    rw [if_neg (not_or.mpr ⟨hback, hdelete⟩), if_neg (by omega)]

section Session
variable {σ : StdSort} {mode : PromptMode} {text filter search : Text} {ui : Ui}

theorem Prompting.frame (h : Prompting mode text filter search ui) (snapshot : SystemSnapshot)
    (rows cols : ℤ) (now : ℕ) :
    Prompting mode text filter search (drawFrame σ ui snapshot rows cols now) where
  running := h.running
  modal := buildFrame_modal σ _ snapshot ui.snapshotHistory now h.modal
  buttons := buildFrame_buttonsOk σ _ snapshot ui.snapshotHistory now h.buttons
  typing := (typing_of_unframed (drawFrame_unframed σ ui snapshot rows cols now)).trans h.typing

/-- The key that reaches the prompt edits as the event's own key does. -/
theorem translateEvent_edit (text : Text) (hbuttons : ButtonsOk ui.state) (frame : Frame) (now : ℕ)
    {event : InputEvent} (hescape : event.key ≠ keyEscape) (henter : isEnter event.key = false) :
    editText text (translateEvent frame now ui.state event).2 = editText text event.key ∧
      (translateEvent frame now ui.state event).2 ≠ keyEscape ∧
      isEnter (translateEvent frame now ui.state event).2 = false := by
  by_cases hmouse : event.key = keyMouse
  · have hbutton : ButtonEvent (translateEvent frame now ui.state event).2 := by
      unfold translateEvent
      rw [if_pos hmouse]
      split
      · exact synthesize_event hbuttons now frame.rows frame.metrics _
      · exact .inl rfl
    obtain ⟨hedit, hkeep⟩ := hbutton.edit text
    have hclick : editText text event.key = text := by
      rw [hmouse]
      rfl
    exact ⟨hedit.trans hclick.symm, hkeep⟩
  · have htranslate : translateEvent frame now ui.state event = (ui.state, event.key) :=
      if_neg hmouse
    rw [htranslate]
    exact ⟨rfl, hescape, henter⟩

theorem Prompting.input (hmode : mode.isText) (h : Prompting mode text filter search ui)
    (frame : Frame) {event : InputEvent} (env : InputEnv) (hescape : event.key ≠ keyEscape)
    (henter : isEnter event.key = false) :
    Prompting mode (editText text event.key) filter search
        (ui.afterInput (processInput ui frame event env)) ∧
      (processInput ui frame event env).actions = [] := by
  have hmodal := processInput_modal h.modal frame event env
  have hbuttons := h.buttons.congr (processInput_fixed ui frame event env)
  suffices hresult : (processInput ui frame event env).running = true ∧
      (processInput ui frame event env).actions = [] ∧
      (processInput ui frame event env).state.typing =
        typingWith mode (editText text event.key) filter search from
    ⟨⟨hresult.1, hmodal, hbuttons, hresult.2.2⟩, hresult.2.1⟩
  have htyping := (translateEvent_typing ui.state frame env.now event).trans h.typing
  have hclick := translateEvent_modal h.modal frame env.now event
  obtain ⟨hedit, hescape', henter'⟩ := translateEvent_edit text h.buttons frame env.now hescape henter
  have hopen : (translateEvent frame env.now ui.state event).1.promptMode ≠ .none := by
    have hprompt : (translateEvent frame env.now ui.state event).1.promptMode = mode :=
      congrArg Prod.fst htyping
    rw [hprompt]
    rcases hmode with rfl | rfl | rfl <;> decide
  unfold processInput
  dsimp only
  rw [← hedit]
  split
  · rename_i herr
    rw [herr]
    exact ⟨rfl, rfl, htyping⟩
  · rw [handleInput_prompt env ui.config _ frame.alpha frame.rows frame.metrics hclick.exclusive hopen]
    exact handlePrompt_edit env ui.config _ frame.rows hmode htyping hescape' henter'

/-- While a text prompt is open, a run edits its text and does nothing to other processes. -/
theorem run_prompting (hmode : mode.isText) {moves : List Move} {ui' : Ui}
    (h : Prompting mode text filter search ui)
    (hkeys : ∀ ch ∈ typedKeys moves, ch ≠ keyEscape ∧ isEnter ch = false)
    (hrun : Machine.run (step σ) moves ui = some ui') :
    Prompting mode ((typedKeys moves).foldl editText text) filter search ui' ∧
      Machine.trace (step σ) actions moves ui = [] := by
  induction moves generalizing ui text with
  | nil =>
    cases hrun
    exact ⟨h, rfl⟩
  | cons move moves ih =>
    obtain ⟨mid, hstep, hrest⟩ := Machine.run_cons hrun
    rw [Machine.trace_cons _ _ hstep]
    cases move with
    | frame snapshot rows cols now =>
      obtain ⟨-, rfl⟩ := step_frame_iff.mp hstep
      exact ih (h.frame snapshot rows cols now) hkeys hrest
    | input event env =>
      obtain ⟨frame, hshown, -, rfl⟩ := step_input_iff.mp hstep
      obtain ⟨hescape, henter⟩ := hkeys event.key List.mem_cons_self
      obtain ⟨hnext, hsilent⟩ := h.input hmode frame env hescape henter
      obtain ⟨hlast, htrace⟩ := ih hnext (fun ch hch => hkeys ch (List.mem_cons_of_mem _ hch)) hrest
      have hactions : actions ui (.input event env) = [] := by
        unfold actions
        rw [hshown]
        exact hsilent
      rw [hactions, htrace]
      exact ⟨hlast, rfl⟩

/-! ## The filter and the search -/

/-- The two prompts whose text is a setting. -/
def PromptMode.openKey (mode : PromptMode) : ℤ := if mode = .filter then key '\\' else key '/'

theorem run_open (hmode : mode = .filter ∨ mode = .search) (h : Closed filter search ui)
    {moves : List Move} (hmoves : typedKeys moves = [mode.openKey]) {ui' : Ui}
    (hrun : Machine.run (step σ) moves ui = some ui') :
    Prompting mode (if mode = .filter then filter else search) filter search ui' := by
  refine run_key (A := Closed filter search) (B := Prompting _ _ _ _)
    (fun _ snapshot rows cols now h => h.frame snapshot rows cols now) ?_
    (fun _ snapshot rows cols now h => h.frame snapshot rows cols now) h hmoves hrun
  intro ui frame event env h hkey
  obtain ⟨hhelp, hsetup, hprocess, hworkload, hprompt⟩ := openCount_eq_zero.mp h.closed
  have hmodal := processInput_modal h.modal frame event env
  have hbuttons := h.buttons.congr (processInput_fixed ui frame event env)
  have hinput : processInput ui frame event env =
      result ui.config (openPrompt ui.state mode (if mode = .filter then filter else search)) := by
    rcases hmode with rfl | rfl
    all_goals
      rw [processInput_key ui frame env hkey (by decide) (by decide)]
      unfold handleInput runCommand
      rw [hhelp, hprocess, hworkload, hsetup, if_neg (not_not.mpr hprompt)]
    · rw [show command (PromptMode.openKey .filter) = .openFilter by decide, ← h.filter]
      rfl
    · rw [show command (PromptMode.openKey .search) = .openSearch by decide, ← h.search]
      rfl
  refine ⟨?_, hmodal, hbuttons, ?_⟩
  · show (processInput ui frame event env).running = true
    rw [hinput]
    rfl
  · show (processInput ui frame event env).state.typing = _
    rw [hinput]
    rcases hmode with rfl | rfl
    · simp [UiState.typing, typingWith, result, openPrompt, h.filter, h.search]
    · simp [UiState.typing, typingWith, result, openPrompt, h.filter, h.search]

/-- Enter keeps what was typed. -/
theorem run_confirm (hmode : mode = .filter ∨ mode = .search)
    (h : Prompting mode text filter search ui) {moves : List Move}
    (hmoves : typedKeys moves = [keyEnter]) {ui' : Ui}
    (hrun : Machine.run (step σ) moves ui = some ui') :
    Closed (if mode = .filter then text else filter) (if mode = .search then text else search)
      ui' := by
  refine run_key (A := Prompting mode text filter search) (B := Closed _ _)
    (fun _ snapshot rows cols now h => h.frame snapshot rows cols now) ?_
    (fun _ snapshot rows cols now h => h.frame snapshot rows cols now) h hmoves hrun
  intro ui frame event env h hkey
  have hmodal := processInput_modal h.modal frame event env
  have hbuttons := h.buttons.congr (processInput_fixed ui frame event env)
  have htyping := h.typing
  simp only [UiState.typing, typingWith, Prod.mk.injEq] at htyping
  obtain ⟨hprompt, hbuffer, hfilter, hsearch⟩ := htyping
  have hopen : ui.state.promptMode ≠ .none := by
    rw [hprompt]
    rcases hmode with rfl | rfl <;> decide
  obtain ⟨hhelp, hsetup, hprocess, hworkload⟩ := popups_of_prompt ui.state h.modal.exclusive hopen
  have hinput : processInput ui frame event env = confirmPrompt env ui.config ui.state := by
    rw [processInput_key ui frame env hkey (by decide) (by decide),
      handleInput_prompt env ui.config _ _ _ _ h.modal.exclusive hopen]
    rfl
  refine ⟨?_, hmodal, hbuttons, ?_, ?_, ?_⟩
  · show (processInput ui frame event env).running = true
    rw [hinput]
    unfold confirmPrompt
    rcases hmode with rfl | rfl <;> rw [hprompt] <;> rfl
  · show (processInput ui frame event env).state.openCount = 0
    rw [hinput, openCount_eq_zero]
    unfold confirmPrompt
    rcases hmode with rfl | rfl
    all_goals
      rw [hprompt]
      exact ⟨hhelp, hsetup, hprocess, hworkload, rfl⟩
  · show (processInput ui frame event env).state.filter = _
    rw [hinput]
    unfold confirmPrompt
    rcases hmode with rfl | rfl
    all_goals rw [hprompt]
    · exact hbuffer
    · exact hfilter
  · show (processInput ui frame event env).state.search = _
    rw [hinput]
    unfold confirmPrompt
    rcases hmode with rfl | rfl
    all_goals rw [hprompt]
    · exact hsearch
    · exact hbuffer

/-- Any keys that are no Escape and no Enter can be typed. -/
theorem exists_run_edits (σ : StdSort) (hmode : mode.isText) {edits : List ℤ}
    (hedits : ∀ ch ∈ edits, ch ≠ keyEscape ∧ isEnter ch = false)
    (h : Prompting mode text filter search ui) (hpolls : ui.polls ≤ inputsPerFrame) :
    ∃ moves ui', Machine.run (step σ) moves ui = some ui' ∧ typedKeys moves = edits ∧
      ui'.polls ≤ inputsPerFrame := by
  induction edits generalizing text ui with
  | nil => exact ⟨[], ui, rfl, rfl, hpolls⟩
  | cons ch edits ih =>
    obtain ⟨moves₁, mid, hmid, hkey, -, -, hpolls₁⟩ :=
      exists_run_key σ h.running hpolls {} 24 80 0 ch
    have hnext := (run_prompting hmode h (by rw [hkey]; simpa using hedits ch List.mem_cons_self)
      hmid).1
    obtain ⟨moves₂, ui', hlast, hkeys, hpolls₂⟩ :=
      ih (fun ch hch => hedits ch (List.mem_cons_of_mem _ hch)) hnext hpolls₁
    obtain ⟨hrun, hjoined⟩ := join_keys hmid hlast
    refine ⟨moves₁ ++ moves₂, ui', hrun, ?_, hpolls₂⟩
    rw [hjoined, hkey, hkeys]
    rfl

/-- With nothing open, the filter or the search can be replaced by any printable text. -/
theorem exists_run_text (σ : StdSort) (mode : PromptMode) (hmode : mode = .filter ∨ mode = .search)
    (h : Closed filter search ui) (hpolls : ui.polls ≤ inputsPerFrame) (htext : Printable text) :
    ∃ moves ui', Machine.run (step σ) moves ui = some ui' ∧ ui'.polls ≤ inputsPerFrame ∧
      Closed (if mode = .filter then text else filter) (if mode = .search then text else search)
        ui' := by
  have hisText : mode.isText := hmode.imp_right .inl
  obtain ⟨moves₁, opened, hopened, hopenKey, -, -, hpolls₁⟩ :=
    exists_run_key σ h.running hpolls {} 24 80 0 mode.openKey
  have hprompting := run_open hmode h hopenKey hopened
  generalize (if mode = .filter then filter else search) = old at hprompting
  have hkeys : ∀ ch ∈ List.replicate old.length keyBackspace ++ text.map key,
      ch ≠ keyEscape ∧ isEnter ch = false := by
    intro ch hch
    rcases List.mem_append.mp hch with hch | hch
    · rw [List.eq_of_mem_replicate hch]
      decide
    · obtain ⟨c, hc, rfl⟩ := List.mem_map.mp hch
      have hprintable := htext c hc
      unfold isEnter key keyEscape keyEnter
      simp only [Bool.or_eq_false_iff, decide_eq_false_iff_not, show '\n'.toNat = 10 by decide]
      omega
  obtain ⟨moves₂, typed, htyped, hedits, hpolls₂⟩ :=
    exists_run_edits σ hisText hkeys hprompting hpolls₁
  have hedited := (run_prompting hisText hprompting (by rw [hedits]; exact hkeys) htyped).1
  rw [hedits, edits_of_printable old htext] at hedited
  obtain ⟨moves₃, ui', hlast, henter, -, -, hpolls₃⟩ :=
    exists_run_key σ hedited.running hpolls₂ {} 24 80 0 keyEnter
  have hclosed := run_confirm hmode hedited henter hlast
  exact ⟨moves₁ ++ (moves₂ ++ moves₃), ui',
    (join_keys hopened (join_keys htyped hlast).1).1, hpolls₃, hclosed⟩

end Session

section Reach
variable (σ : StdSort) (file : Option Text) (options : SettingOptions) {before : List Move} {ui : Ui}
  (hreach : Machine.run (step σ) before (start (runConfig file options)) = some ui)
  (hrunning : ui.running = true)
include hreach hrunning

/-- While a text prompt is open, whatever is typed or clicked but Escape and Enter edits its text, the
filter or the search is that text at any moment, and no other process is touched. -/
theorem prompt_session (hmode : ui.state.promptMode.isText) {moves : List Move} {ui' : Ui}
    (hkeys : ∀ ch ∈ typedKeys moves, ch ≠ keyEscape ∧ isEnter ch = false)
    (hrun : Machine.run (step σ) moves ui = some ui') :
    ui'.running = true ∧ ui'.state.promptMode = ui.state.promptMode ∧
      ui'.state.promptBuffer = (typedKeys moves).foldl editText ui.state.promptBuffer ∧
      ui'.state.filter = (if ui.state.promptMode = .filter then ui'.state.promptBuffer
        else ui.state.filter) ∧
      ui'.state.search = (if ui.state.promptMode = .search then ui'.state.promptBuffer
        else ui.state.search) ∧
      Machine.trace (step σ) actions moves ui = [] := by
  have hstate := run_typed (runConfig file options) hreach
  have htyping : ui.state.typing = typingWith ui.state.promptMode ui.state.promptBuffer
      ui.state.filter ui.state.search := by
    unfold UiState.typing typingWith
    simp only [Prod.mk.injEq, true_and]
    constructor
    · split
      · rename_i hfilter
        exact hstate.liveFilter hfilter
      · rfl
    · split
      · rename_i hsearch
        exact hstate.liveSearch hsearch
      · rfl
  have hprompting : Prompting _ _ _ _ ui := ⟨hrunning, reached_modal hreach,
    reached_buttons hreach, htyping⟩
  obtain ⟨hlast, htrace⟩ := run_prompting hmode hprompting hkeys hrun
  have htyped := hlast.typing
  simp only [UiState.typing, typingWith, Prod.mk.injEq] at htyped
  obtain ⟨hprompt, hbuffer, hfilter, hsearch⟩ := htyped
  rw [hbuffer]
  exact ⟨hlast.running, hprompt, rfl, hfilter, hsearch, htrace⟩

/-- From any reachable state the filter and the search can be brought to two texts, with nothing left
open, exactly when both are printable. -/
theorem reachable_texts (filter search : Text) :
    (∃ moves ui', Machine.run (step σ) moves ui = some ui' ∧ ui'.state.openCount = 0 ∧
      ui'.state.filter = filter ∧ ui'.state.search = search) ↔
        Printable filter ∧ Printable search := by
  constructor
  · rintro ⟨moves, ui', hrun, -, rfl, rfl⟩
    have hwhole : Machine.run (step σ) (before ++ moves) (start (runConfig file options)) =
        some ui' := by
      rw [Machine.run_append, hreach]
      exact hrun
    have htyped := run_typed (runConfig file options) hwhole
    exact ⟨htyped.filter, htyped.search⟩
  · rintro ⟨hfilter, hsearch⟩
    have hmodal := reached_modal hreach
    have hbuttons := reached_buttons hreach
    obtain ⟨moves₁, closed, hescape, hkey, -, -, hpolls₁⟩ := exists_run_key σ hrunning
      (run_polls (runConfig file options) hreach) {} 24 80 0 keyEscape
    have hclosed := run_escape hrunning hmodal hbuttons hkey hescape
    obtain ⟨moves₂, filtered, hfiltered, hpolls₂, hclosed₂⟩ :=
      exists_run_text σ .filter (.inl rfl) hclosed hpolls₁ hfilter
    obtain ⟨moves₃, ui', hsearched, -, hclosed₃⟩ :=
      exists_run_text σ .search (.inr rfl) hclosed₂ hpolls₂ hsearch
    exact ⟨moves₁ ++ (moves₂ ++ moves₃), ui',
      (join_keys hescape (join_keys hfiltered hsearched).1).1, hclosed₃.closed, hclosed₃.filter,
      hclosed₃.search⟩

end Reach

/-- The filter prompt has been opened. -/
def filterOpened : List Move := [.frame {} 40 120 0, .input { key := keyF 4 } {}]

/-- A wrong letter, taken back, and the right one. -/
def filterTyped : List Move :=
  [.input { key := key 'p' } {}, .input { key := keyBackspace } {}, .input { key := key 'y' } {}]

theorem filter_opened :
    ∃ ui, Machine.run (step .insertion) filterOpened (start (runConfig none {})) = some ui ∧
      ui.running = true ∧ ui.state.promptMode = .filter ∧ ui.state.promptBuffer = [] ∧
      (Machine.run (step .insertion) filterTyped ui).isSome = true := by
  have hrun : ((Machine.run (step .insertion) filterOpened (start (runConfig none {}))).map
      fun ui => (ui.running, ui.state.promptMode, ui.state.promptBuffer,
        (Machine.run (step .insertion) filterTyped ui).isSome)) =
          some (true, .filter, [], true) := by decide
  obtain ⟨ui, hui, hopen⟩ := Option.map_eq_some_iff.mp hrun
  simp only [Prod.mk.injEq] at hopen
  exact ⟨ui, hui, hopen⟩

theorem prompt_session_filter :
    ∃ ui ui', Machine.run (step .insertion) filterOpened (start (runConfig none {})) = some ui ∧
      Machine.run (step .insertion) filterTyped ui = some ui' ∧ ui'.state.filter = str "y" := by
  obtain ⟨ui, hui, hrunning, hmode, hbuffer, hsome⟩ := filter_opened
  obtain ⟨ui', hui'⟩ := Option.isSome_iff_exists.mp hsome
  obtain ⟨-, -, htext, hfilter, -⟩ := prompt_session .insertion none {} hui hrunning
    (hmode ▸ .inl rfl) (by decide : ∀ ch ∈ typedKeys filterTyped, ch ≠ keyEscape ∧ isEnter ch = false)
    hui'
  refine ⟨ui, ui', hui, hui', ?_⟩
  rw [hfilter, if_pos hmode, htext, hbuffer]
  decide +kernel

theorem reachable_texts_filter :
    ∃ ui, Machine.run (step .insertion) filterOpened (start (runConfig none {})) = some ui ∧
      ∃ moves ui', Machine.run (step .insertion) moves ui = some ui' ∧ ui'.state.openCount = 0 ∧
        ui'.state.filter = ['l', 'l'] ∧ ui'.state.search = [] := by
  obtain ⟨ui, hui, hrunning, -⟩ := filter_opened
  have hprintable : Printable ['l', 'l'] := by
    intro c hc
    obtain rfl : c = 'l' := by simpa using hc
    decide
  exact ⟨ui, hui, (reachable_texts .insertion none {} hui hrunning ['l', 'l'] []).mpr
    ⟨hprintable, nofun⟩⟩

end Mtop
