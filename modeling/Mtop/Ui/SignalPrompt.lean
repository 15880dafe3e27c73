import Mtop.Ui.Popups

/-! What the text of the signal prompt delivers. -/
namespace Mtop
open Cxx
set_option autoImplicit false

/-! ## Plain texts -/

/-- The default, or the decimal form of a positive `int`. -/
def PlainSignal (text : Text) : Prop := text = [] ∨ ∃ n : ℕ, 0 < n ∧ n < 2 ^ 31 ∧ text = natText n

/-- A delivered signal is the one the text says. -/
def SignalAsTyped (env : InputEnv) (text : Text) (result : InputResult) : Prop :=
  ∀ pid signal, Action.kill pid signal ∈ result.actions → env.reply.kill = none →
    (text = [] ∧ signal = sigterm) ∨ (0 < signal ∧ text = intText signal)

/-- The number that the prompt passes to `kill`. -/
def promptSignal (text : Text) : ℤ := max 1 (if text = [] then sigterm else atoi text)

theorem atoi_lt (text : Text) : atoi text < 2 ^ 31 := by
  unfold atoi toInt32
  omega

theorem intText_of_pos {signal : ℤ} (h : 0 < signal) : intText signal = natText signal.natAbs := by
  unfold intText
  rw [if_neg (by omega)]

/-- A plain text is read as the number it is. -/
theorem promptSignal_natText {n : ℕ} (hpos : 0 < n) (hlt : n < 2 ^ 31) :
    promptSignal (natText n) = n := by
  have hread : atoi (natText n ++ []) = n := atoi_natText n (by simp) hlt
  rw [List.append_nil] at hread
  unfold promptSignal
  rw [if_neg (natText_ne_nil n), hread]
  omega

/-- The number sent is the one typed exactly for plain texts. -/
theorem promptSignal_asTyped (text : Text) :
    ((text = [] ∧ promptSignal text = sigterm) ∨
      (0 < promptSignal text ∧ text = intText (promptSignal text))) ↔ PlainSignal text := by
  constructor
  · rintro (⟨hempty, -⟩ | ⟨hpos, htext⟩)
    · exact .inl hempty
    · have hlt : promptSignal text < 2 ^ 31 := by
        have := atoi_lt text
        unfold promptSignal sigterm
        split <;> omega
      refine .inr ⟨(promptSignal text).natAbs, by omega, by omega, ?_⟩
      exact htext.trans (intText_of_pos hpos)
  · rintro (rfl | ⟨n, hpos, hlt, rfl⟩)
    · exact .inl ⟨rfl, by decide⟩
    · have hsignal := promptSignal_natText hpos hlt
      refine .inr ⟨by omega, ?_⟩
      rw [hsignal, intText_of_pos (by omega), Int.natAbs_natCast]

/-! ## The prompt -/

section Prompt
variable (env : InputEnv) (config : AppConfig) (state : UiState) (alpha : AlphaModel)
  (rows : List ProcessRow) (metrics : ProcessViewMetrics) {ch : ℤ}

/-- With the signal prompt in front, Enter closes it and sends. -/
theorem handleInput_confirmSignal (hmodal : state.openCount ≤ 1)
    (hprompt : state.promptMode = .signal) (hch : isEnter ch = true) :
    handleInput env config state alpha rows metrics ch =
      sendSignalToSelectedProcess env config
        { state with promptMode := .none, promptBuffer := [] } (promptSignal state.promptBuffer) := by
  have hclosed : (state.showHelp.toNat + state.showSetup.toNat + state.showProcessDetail.toNat +
      state.showWorkloadDetail.toNat) + 1 ≤ 1 := by
    have := hmodal
    unfold UiState.openCount at this
    rw [hprompt] at this
    exact this
  have hoff : ∀ b : Bool, b.toNat = 0 → ¬ b = true := fun b hb htrue => by
    rw [htrue] at hb
    cases hb
  have hescape : ch ≠ keyEscape := by
    rintro rfl
    cases hch
  unfold handleInput
  rw [if_neg (hoff _ (by omega)), if_neg (hoff _ (by omega)), if_neg (hoff _ (by omega)),
    if_neg (hoff _ (by omega)), if_pos (by rw [hprompt]; decide)]
  unfold handlePrompt confirmPrompt
  rw [if_neg hescape, if_pos hch, hprompt]
  rfl

theorem mem_sendSignal {pid signal number : ℤ} :
    Action.kill pid number ∈ (sendSignalToSelectedProcess env config state signal).actions ↔
      state.selectedPid = some pid ∧ number = signal := by
  unfold sendSignalToSelectedProcess
  cases state.selectedPid with
  | none => exact ⟨fun h => absurd h List.not_mem_nil, fun h => nomatch h.1⟩
  | some selected =>
    dsimp only
    rw [List.mem_singleton, Action.kill.injEq, Option.some_inj, eq_comm (a := pid)]

/-- Confirming the signal prompt delivers what was typed, or nothing, exactly when nothing is
selected, the call is refused or the text is plain. -/
theorem signal_prompt_iff (hmodal : state.openCount ≤ 1) (hprompt : state.promptMode = .signal)
    (hch : isEnter ch = true) :
    SignalAsTyped env state.promptBuffer (handleInput env config state alpha rows metrics ch) ↔
      state.selectedPid = none ∨ env.reply.kill ≠ none ∨ PlainSignal state.promptBuffer := by
  unfold SignalAsTyped
  rw [handleInput_confirmSignal env config state alpha rows metrics hmodal hprompt hch]
  simp only [mem_sendSignal]
  constructor
  · intro h
    cases hpid : state.selectedPid with
    | none => exact .inl rfl
    | some pid =>
      refine .inr ?_
      by_cases hkill : env.reply.kill = none
      · exact .inr ((promptSignal_asTyped _).mp (h pid _ ⟨hpid, rfl⟩ hkill))
      · exact .inl hkill
  · rintro (hnone | hrefused | hplain) pid signal ⟨hpid, rfl⟩ hkill
    · rw [hnone] at hpid
      cases hpid
    · exact absurd hkill hrefused
    · exact (promptSignal_asTyped _).mpr hplain

end Prompt

/-- A process is selected and `text` stands in the signal prompt. -/
def typedSignal (text : Text) : UiState :=
  { promptMode := .signal, promptBuffer := text, selectedPid := some 4242 }

theorem signal_prompt_iff_nine :
    SignalAsTyped {} (str "9") (handleInput {} {} (typedSignal (str "9")) {} [] {} keyEnter) :=
  (signal_prompt_iff {} {} (typedSignal (str "9")) {} [] {} (by decide) rfl (by decide)).mpr
    (.inr (.inr (.inr ⟨9, by decide, by decide, by decide +kernel⟩)))

/-- The name of a signal is sent as signal 1, `SIGHUP`. -/
theorem typed_word_hangs_up :
    (handleInput {} {} (typedSignal (str "TERM")) {} [] {} keyEnter).actions = [.kill 4242 1] ∧
      ¬ SignalAsTyped {} (str "TERM")
        (handleInput {} {} (typedSignal (str "TERM")) {} [] {} keyEnter) := by
  have hactions : (handleInput {} {} (typedSignal (str "TERM")) {} [] {} keyEnter).actions =
      [.kill 4242 1] := by decide +kernel
  refine ⟨hactions, fun h => ?_⟩
  have htyped := h 4242 1 (by rw [hactions]; exact List.mem_singleton.mpr rfl) rfl
  revert htyped
  decide +kernel

end Mtop
