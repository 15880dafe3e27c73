import Mtop.Ui.LoopSteps
import Mtop.Ui.Target

/-! The function keys at the bottom as buttons. A label that no longer fits keeps the bounds it had on
a wider terminal, so the bounds are followed through every resize. -/
namespace Mtop
open Cxx
set_option autoImplicit false

/-! ## What is printed -/

/-- The text of a label that is drawn at a column. -/
def labelText (width col : ℤ) (label : Text × Text × ℤ) : Text :=
  if col + label.1.length < width - 1 then label.1 ++ label.2.1 else label.1

/-- The labels that the calls of `draw_key_label` print: the column, the text and the key. -/
def drawnLabels (width : ℤ) : ℤ → List (Text × Text × ℤ) → List (ℤ × Text × ℤ)
  | _, [] => []
  | col, label :: labels =>
    let rest := drawnLabels width (drawKeyLabel width col label {}).1 labels
    if col ≥ width - 4 then rest else (col, labelText width col label, label.2.2) :: rest

/-- The place of every label on a terminal that is wide enough: first and last column, and the key. -/
def labelSlots : ℤ → List (Text × Text × ℤ) → List ButtonBounds
  | _, [] => []
  | start, label :: labels =>
    let stop := start + label.1.length + label.2.1.length + 1
    ⟨start, stop - 1, label.2.2⟩ :: labelSlots stop labels

/-! ## One label -/

section Label
variable {width col : ℤ} {label : Text × Text × ℤ}

theorem drawKeyLabel_full (h : width - 4 ≤ col) (bounds : ButtonBounds) :
    drawKeyLabel width col label bounds = (col, bounds) := if_pos h

/-- A label that is drawn starts where the last one ended, covers its text, and either takes its whole
slot or leaves no room for another. -/
theorem drawKeyLabel_drawn (label : Text × Text × ℤ) (h : col < width - 4) :
    ∃ stop, (∀ bounds, drawKeyLabel width col label bounds = (stop, ⟨col, stop - 1, label.2.2⟩)) ∧
      col + (labelText width col label).length ≤ stop ∧
      (stop = col + label.1.length + label.2.1.length + 1 ∨
        stop ≤ col + label.1.length + label.2.1.length + 1 ∧ width - 4 ≤ stop) := by
  refine ⟨_, fun bounds => if_neg (not_le.mpr h), ?_, ?_⟩
  · unfold labelText
    split_ifs <;> push_cast [List.length_append] <;> omega
  · split_ifs <;> omega

end Label

/-! ## All labels -/

/-- A button as the loop leaves it: never drawn yet, or drawn within its slot. -/
inductive InSlots : ℤ → List (Text × Text × ℤ) → List ButtonBounds → Prop
  | nil (start : ℤ) : InSlots start [] []
  | cons {start : ℤ} {label : Text × Text × ℤ} {labels : List (Text × Text × ℤ)}
      {button : ButtonBounds} {buttons : List ButtonBounds}
      (h : button = {} ∨ button.x0 = start ∧
        button.x1 < start + label.1.length + label.2.1.length + 1 ∧ button.event = label.2.2)
      (hrest : InSlots (start + label.1.length + label.2.1.length + 1) labels buttons) :
      InSlots start (label :: labels) (button :: buttons)

/-- A button reacts to a column. -/
def ButtonBounds.covers (x : ℤ) (button : ButtonBounds) : Bool := button.x0 ≤ x && x ≤ button.x1

section Labels
variable {width start col x : ℤ} {labels : List (Text × Text × ℤ)} {buttons : List ButtonBounds}

/-- Drawing at any width keeps every button in its slot. -/
theorem drawKeyLabels_inSlots (h : InSlots start labels buttons)
    (hcol : col = start ∨ width - 4 ≤ col) :
    InSlots start labels (drawKeyLabels width col labels buttons) := by
  induction h generalizing col with
  | nil start => exact .nil start
  | @cons start label labels button buttons h _ ih =>
    rw [drawKeyLabels]
    by_cases hfull : width - 4 ≤ col
    · rw [drawKeyLabel_full hfull]
      exact .cons h (ih (.inr hfull))
    · obtain rfl := hcol.resolve_right hfull
      obtain ⟨stop, hdraw, -, hstop⟩ := drawKeyLabel_drawn label (not_le.mp hfull)
      rw [hdraw]
      exact .cons (.inr ⟨rfl, by dsimp only; omega, rfl⟩) (ih (hstop.imp_right And.right))

/-- A button that reacts does so inside its slot. -/
theorem InSlots.covers_slot (h : InSlots start labels buttons) (hx : 0 ≤ x) :
    ∀ button ∈ buttons, button.covers x = true →
      ∃ slot ∈ labelSlots start labels, slot.covers x = true ∧ button.event = slot.event := by
  induction h with
  | nil start => exact fun _ hb => absurd hb List.not_mem_nil
  | @cons start label labels button buttons h _ ih =>
    intro b hb hcovers
    rcases List.mem_cons.mp hb with rfl | hb
    · rcases h with rfl | ⟨hx0, hx1, hevent⟩
      · simp only [ButtonBounds.covers, Bool.and_eq_true, decide_eq_true_eq] at hcovers
        omega
      · refine ⟨_, List.mem_cons_self, ?_, hevent⟩
        simp only [ButtonBounds.covers, Bool.and_eq_true, decide_eq_true_eq] at hcovers ⊢
        omega
    · obtain ⟨slot, hslot, hrest⟩ := ih b hb hcovers
      exact ⟨slot, List.mem_cons_of_mem _ hslot, hrest⟩

theorem drawnLabels_full (h : width - 4 ≤ col) : drawnLabels width col labels = [] := by
  induction labels with
  | nil => rfl
  | cons label labels ih =>
    rw [drawnLabels, drawKeyLabel_full h]
    dsimp only
    rw [if_pos h, ih]

theorem drawnLabels_ge : ∀ entry ∈ drawnLabels width col labels, col ≤ entry.1 := by
  induction labels generalizing col with
  | nil => exact fun _ he => absurd he List.not_mem_nil
  | cons label labels ih =>
    intro entry hentry
    rw [drawnLabels] at hentry
    by_cases hfull : width - 4 ≤ col
    · rw [drawKeyLabel_full hfull] at hentry
      dsimp only at hentry
      rw [if_pos hfull] at hentry
      exact ih entry hentry
    · obtain ⟨stop, hdraw, htext, -⟩ := drawKeyLabel_drawn label (not_le.mp hfull)
      rw [hdraw] at hentry
      dsimp only at hentry
      rw [if_neg hfull] at hentry
      rcases List.mem_cons.mp hentry with rfl | hentry
      · exact le_refl _
      · have := ih entry hentry
        omega

/-- The first button to react on the text of a label is the label's own. -/
theorem find_drawnLabel (hlength : labels.length = buttons.length) :
    ∀ entry ∈ drawnLabels width col labels, entry.1 ≤ x → x < entry.1 + entry.2.1.length →
      ((drawKeyLabels width col labels buttons).find? (·.covers x)).map (·.event) =
        some entry.2.2 := by
  induction labels generalizing col buttons with
  | nil => exact fun _ he => absurd he List.not_mem_nil
  | cons label labels ih =>
    intro entry hentry hlow hhigh
    cases buttons with
    | nil => cases hlength
    | cons button buttons =>
      by_cases hfull : width - 4 ≤ col
      · rw [drawnLabels_full hfull] at hentry
        exact absurd hentry List.not_mem_nil
      · obtain ⟨stop, hdraw, htext, -⟩ := drawKeyLabel_drawn label (not_le.mp hfull)
        rw [drawnLabels, hdraw] at hentry
        dsimp only at hentry
        rw [if_neg hfull] at hentry
        rw [drawKeyLabels, hdraw]
        rcases List.mem_cons.mp hentry with rfl | hentry
        · rw [List.find?_cons_of_pos]
          · rfl
          · simp only [ButtonBounds.covers, Bool.and_eq_true, decide_eq_true_eq]
            dsimp only at hlow hhigh
            omega
        · have hge := drawnLabels_ge entry hentry
          rw [List.find?_cons_of_neg]
          · exact ih (Nat.succ.inj hlength) entry hentry hlow hhigh
          · simp only [ButtonBounds.covers, Bool.and_eq_true, decide_eq_true_eq]
            omega

end Labels

/-! ## Clicks -/

/-- A click on the line of the labels. -/
def footerClick (frame : Frame) (x : ℤ) : InputEvent where
  key := keyMouse
  mouse := some ⟨x, frame.layout.footerY + 1, true⟩

/-- What the labels promise for the inputs after a frame. -/
structure FooterReady (frame : Frame) (state : UiState) : Prop where
  slots : InSlots 0 keyLabels state.footerButtons
  drawn : ∃ before, InSlots 0 keyLabels before ∧
    state.footerButtons = drawKeyLabels frame.layout.cols 0 keyLabels before
  layout : ∃ rows cols, frame.layout = createWindows rows cols
  pages : frame.metrics.pageRows = pageRowsOf frame.layout.processHeight

section Click
variable {frame : Frame} {state : UiState}

/-- Nothing else reacts to a click on the labels. -/
theorem translate_footerClick (h : FooterReady frame state) (hrows : 24 ≤ frame.layout.rows) (now : ℕ)
    (x : ℤ) :
    translateEvent frame now state (footerClick frame x) =
      (state, ((state.footerButtons.find? (·.covers x)).map (·.event)).getD err) := by
  obtain ⟨rows, cols, hlayout⟩ := h.layout
  have hplace : frame.layout.processY + 1 < frame.layout.footerY + 1 ∧
      frame.layout.processY + 2 + frame.metrics.pageRows - 1 < frame.layout.footerY + 1 := by
    rw [h.pages]
    rw [hlayout] at hrows ⊢
    unfold pageRowsOf
    unfold createWindows at hrows ⊢
    dsimp only at hrows ⊢
    omega
  have hheader : clickHeader frame.layout now state ⟨x, frame.layout.footerY + 1, true⟩ =
      (state, false) := by
    unfold clickHeader
    rw [if_neg (by dsimp only; omega)]
  have hrow : clickedRow frame.layout state frame.rows frame.metrics (frame.layout.footerY + 1) =
      none := by
    unfold clickedRow
    rw [if_neg (by omega)]
  unfold translateEvent footerClick
  rw [if_pos rfl]
  show synthesizeMouseEvent frame.layout now state frame.rows frame.metrics
    ⟨x, frame.layout.footerY + 1, true⟩ = _
  unfold synthesizeMouseEvent
  rw [hheader]
  dsimp only
  rw [hrow]
  unfold clickFooter
  rw [if_pos rfl]
  dsimp only
  unfold ButtonBounds.covers
  cases state.footerButtons.find? fun button => button.x0 ≤ x && x ≤ button.x1 <;> rfl

end Click
/-! ## Runs -/

/-- The buttons stay in their slots, and after a frame they are ready for clicks. -/
structure FooterInv (ui : Ui) : Prop where
  slots : InSlots 0 keyLabels ui.state.footerButtons
  ready : ∀ frame, ui.frame = some frame → FooterReady frame ui.state

theorem FooterReady.congr {frame : Frame} {state state' : UiState} (h : FooterReady frame state)
    (hfixed : state'.fixed = state.fixed) : FooterReady frame state' := by
  have hbuttons : state'.footerButtons = state.footerButtons := congrArg Prod.snd hfixed
  exact ⟨hbuttons ▸ h.slots, hbuttons ▸ h.drawn, h.layout, h.pages⟩

theorem inSlots_blank (start : ℤ) (labels : List (Text × Text × ℤ)) :
    InSlots start labels (List.replicate labels.length {}) := by
  induction labels generalizing start with
  | nil => exact .nil start
  | cons label labels ih => exact .cons (.inl rfl) (ih _)

theorem start_footer (config : AppConfig) : FooterInv (start config) where
  slots := by
    have hcount : keyLabels.length = functionKeyCount := rfl
    show InSlots 0 keyLabels (List.replicate functionKeyCount {})
    rw [← hcount]
    exact inSlots_blank 0 keyLabels
  ready frame hframe := absurd (show none = some frame from hframe) (Option.some_ne_none frame).symm

section Frame
variable {σ : StdSort} {ui : Ui}

theorem drawFrame_footer (h : FooterInv ui) (snapshot : SystemSnapshot) (rows cols : ℤ) (now : ℕ) :
    FooterInv (drawFrame σ ui snapshot rows cols now) := by
  let drawn := buildFrame σ (createWindows rows cols) snapshot ui.snapshotHistory now ui.state
  have hshown : drawn.1.shown.footerButtons = ui.state.footerButtons :=
    congrArg Prod.snd (((showRows_fixed _ _ _ _).trans (applySearchRequest_fixed _ _ now)).trans
      (frameAlpha_fixed ui.state σ snapshot ui.snapshotHistory now))
  have hbuttons : drawn.2.footerButtons =
      drawKeyLabels (createWindows rows cols).cols 0 keyLabels ui.state.footerButtons := by
    rw [← hshown]
    exact congrArg Prod.snd (drawPopups_fixed _ _ _)
  have hslots : InSlots 0 keyLabels drawn.2.footerButtons := by
    rw [hbuttons]
    exact drawKeyLabels_inSlots h.slots (.inl rfl)
  refine ⟨hslots, fun frame hframe => ?_⟩
  cases hframe
  exact ⟨hslots, ⟨_, h.slots, hbuttons⟩, ⟨rows, cols, rfl⟩, calculateProcessMetrics_pageRows _ _ _⟩

theorem afterInput_footer (h : FooterInv ui) (frame : Frame) (event : InputEvent) (env : InputEnv) :
    FooterInv (ui.afterInput (processInput ui frame event env)) := by
  have hfixed := processInput_fixed ui frame event env
  refine ⟨?_, fun frame' hframe => (h.ready frame' hframe).congr hfixed⟩
  rw [show (ui.afterInput (processInput ui frame event env)).state.footerButtons =
    ui.state.footerButtons from congrArg Prod.snd hfixed]
  exact h.slots

end Frame

theorem InSlots.length_eq {start : ℤ} {labels : List (Text × Text × ℤ)} {buttons : List ButtonBounds}
    (h : InSlots start labels buttons) : labels.length = buttons.length := by
  induction h with
  | nil start => rfl
  | cons _ _ ih => exact congrArg (· + 1) ih

/-- An input that stands for a function key is handled as the key. -/
theorem processInput_of_translate {ui : Ui} {frame : Frame} {event : InputEvent} {env : InputEnv}
    {ch : ℤ} (hch : ch ≠ keyMouse)
    (h : translateEvent frame env.now ui.state event = (ui.state, ch)) :
    processInput ui frame event env = processInput ui frame { key := ch } env := by
  have hkey : translateEvent frame env.now ui.state { key := ch } = (ui.state, ch) := if_neg hch
  unfold processInput
  rw [h, hkey]

/-- Clicking the text of a function key's label is pressing the key, in every frame of every run and
after any resizes; and nowhere else on that line does a click press a key other than the one whose
label has its place there. -/
theorem footer_click_presses_key (σ : StdSort) (config : AppConfig) {moves : List Move} {ui : Ui}
    (hrun : Machine.run (step σ) moves (start config) = some ui) {frame : Frame}
    (hframe : ui.frame = some frame) (hrows : 24 ≤ frame.layout.rows) (env : InputEnv) {x : ℤ}
    (hx : 0 ≤ x) :
    (∀ label ∈ drawnLabels frame.layout.cols 0 keyLabels,
      label.1 ≤ x → x < label.1 + label.2.1.length →
        processInput ui frame (footerClick frame x) env =
          processInput ui frame { key := label.2.2 } env) ∧
      (processInput ui frame (footerClick frame x) env = processInput ui frame {} env ∨
        ∃ slot ∈ labelSlots 0 keyLabels, slot.covers x = true ∧
          processInput ui frame (footerClick frame x) env =
            processInput ui frame { key := slot.event } env) := by
  have hinv : FooterInv ui := loop_keeps
    (fun _ snapshot rows cols now h _ => drawFrame_footer h snapshot rows cols now)
    (fun _ frame event env h _ _ => afterInput_footer h frame event env) (start_footer config) hrun
  have hready := hinv.ready frame hframe
  have hclick := translate_footerClick hready hrows env.now x
  have hkeys : ∀ slot ∈ labelSlots 0 keyLabels, slot.event ≠ keyMouse := by decide
  have hbutton : ∀ button, ui.state.footerButtons.find? (·.covers x) = some button →
      ∃ slot ∈ labelSlots 0 keyLabels, slot.covers x = true ∧ button.event = slot.event ∧
        processInput ui frame (footerClick frame x) env =
          processInput ui frame { key := slot.event } env := by
    intro button hfind
    obtain ⟨slot, hslot, hcovers, hevent⟩ := hready.slots.covers_slot hx button
      (List.mem_of_find?_eq_some hfind) (List.find?_some hfind)
    rw [hfind] at hclick
    refine ⟨slot, hslot, hcovers, hevent, processInput_of_translate (hkeys slot hslot) ?_⟩
    rw [← hevent]
    exact hclick
  constructor
  · intro label hlabel hlow hhigh
    obtain ⟨before, hbefore, hdrawn⟩ := hready.drawn
    have hfind := find_drawnLabel hbefore.length_eq label hlabel hlow hhigh
    rw [← hdrawn] at hfind
    obtain ⟨button, hbuttonFind, hevent⟩ := Option.map_eq_some_iff.mp hfind
    obtain ⟨slot, -, -, hslot, hinput⟩ := hbutton button hbuttonFind
    rw [hinput, ← hslot, hevent]
  · cases hfind : ui.state.footerButtons.find? (·.covers x) with
    | none =>
      rw [hfind] at hclick
      exact .inl (processInput_of_translate (by decide) hclick)
    | some button =>
      obtain ⟨slot, hslot, hcovers, -, hinput⟩ := hbutton button hfind
      exact .inr ⟨slot, hslot, hcovers, hinput⟩

/-- The one frame of a run on a terminal of 30 lines and 60 columns. -/
def narrowRun : List Move := [.frame {} 30 60 0]

theorem footer_click_presses_key_narrow :
    ∃ ui frame, Machine.run (step .insertion) narrowRun (start { viewProfile := .beta }) = some ui ∧
      ui.frame = some frame ∧
      processInput ui frame (footerClick frame 50) {} = processInput ui frame { key := keyF 7 } {} := by
  have hsome : ((Machine.run (step .insertion) narrowRun (start { viewProfile := .beta })).bind
      (·.frame)).map (·.layout) = some (createWindows 30 60) := by decide
  obtain ⟨frame, hbind, hlayout⟩ := Option.map_eq_some_iff.mp hsome
  obtain ⟨ui, hrun, hframe⟩ := Option.bind_eq_some_iff.mp hbind
  have hclick := (footer_click_presses_key .insertion _ hrun hframe (by rw [hlayout]; decide) {}
    (by decide : (0 : ℤ) ≤ 50)).1 (49, str "F7View-", keyF 7)
  rw [hlayout] at hclick
  exact ⟨ui, frame, hrun, hframe, hclick (by decide +kernel) (by decide) (by decide +kernel)⟩

end Mtop
