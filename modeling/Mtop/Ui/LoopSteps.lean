import Mtop.Library.Lockstep
import Mtop.Ui.MainLoop

/-! What the two kinds of moves of the main loop do, for arguments about whole runs. -/
namespace Mtop
open Cxx
set_option autoImplicit false

/-- A frame is due at the start and after every twenty inputs. -/
def Ui.FrameDue (ui : Ui) : Prop :=
  ui.running = true ∧ (ui.frame.isNone = true ∨ ui.polls = inputsPerFrame)

/-- Inputs are handled with the frame that was drawn last. -/
def Ui.InputDue (ui : Ui) : Prop := ui.running = true ∧ ui.polls < inputsPerFrame

/-- The interface after an input has been handled. -/
def Ui.afterInput (ui : Ui) (r : InputResult) : Ui :=
  { ui with config := r.config, state := r.state, polls := ui.polls + 1, running := r.running }

section Steps
variable {σ : StdSort} {ui ui' : Ui}

theorem step_frame_iff {snapshot : SystemSnapshot} {rows cols : ℤ} {now : ℕ} :
    step σ (.frame snapshot rows cols now) ui = some ui' ↔
      ui.FrameDue ∧ drawFrame σ ui snapshot rows cols now = ui' := by
  simp only [step, Option.ite_none_right_eq_some, Option.some.injEq, Ui.FrameDue]

theorem step_input_iff {event : InputEvent} {env : InputEnv} :
    step σ (.input event env) ui = some ui' ↔ ∃ frame, ui.frame = some frame ∧ ui.InputDue ∧
      ui.afterInput (processInput ui frame event env) = ui' := by
  unfold Ui.InputDue Ui.afterInput
  cases hframe : ui.frame with
  | none => simp [step, hframe]
  | some frame => simp [step, hframe]

/-- What every drawn frame and every handled input keep, every run keeps. -/
theorem loop_keeps {P : Ui → Prop}
    (hframe : ∀ ui snapshot rows cols now, P ui → ui.FrameDue →
      P (drawFrame σ ui snapshot rows cols now))
    (hinput : ∀ ui frame event env, P ui → ui.frame = some frame → ui.InputDue →
      P (ui.afterInput (processInput ui frame event env)))
    {moves : List Move} (h : P ui) (hrun : Machine.run (step σ) moves ui = some ui') : P ui' := by
  refine Machine.run_keeps (fun s m s' hs hstep => ?_) h hrun
  cases m with
  | frame snapshot rows cols now =>
    obtain ⟨hdue, rfl⟩ := step_frame_iff.mp hstep
    exact hframe s snapshot rows cols now hs hdue
  | input event env =>
    obtain ⟨frame, hshown, hdue, rfl⟩ := step_input_iff.mp hstep
    exact hinput s frame event env hs hshown hdue

end Steps
end Mtop
