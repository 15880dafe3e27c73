import Mtop.Platform.Capture

/-! What `run_command_capture_result` reports about the child, over every interleaving of the two.
The loop has three exits that collect no status; a run reports the truth exactly when it takes none
of them. -/
namespace Mtop.Capture
open Cxx Machine
set_option autoImplicit false

/-- What a returned result owes its caller: the child is reaped, `ok` says that it exited with code
0 before the deadline, and a failure has a reason. -/
def Truthful (s : State) : Prop :=
  ∃ w, s.child = .reaped w ∧
    (s.result.ok = true ↔ w = .exited 0 ∧ s.result.timedOut = false) ∧
    (s.result.ok = false → s.result.reason ≠ [])

/-- The step is not one of the exits without a status: a poll that finds the child unfinished after
end of file, a failed poll, a failed wait after SIGKILL. -/
def Collects (s : State) : Move → Prop
  | .wait .notYet => ¬ (s.pc = .poll ∧ s.childDone = true)
  | .wait (.failed _) => s.pc ≠ .poll ∧ s.pc ≠ .killWait
  | _ => True

def Uncollected (s : State) : Prop := ∀ w, s.child ≠ .reaped w

/-- The loop is over and the status word is the reaped child's. -/
def Collected (s : State) : Prop :=
  ∃ w, s.child = .reaped w ∧ s.result.ok = false ∧
    (s.result.timedOut = true ∧ s.result.reason = str "timeout" ∨
      s.result.timedOut = false ∧ s.status = w.encode)

inductive Inv (s : State) : Prop
  | looping (hpc : s.pc = .readLoop ∨ s.pc = .poll ∨ s.pc = .deadlineTest)
      (hchild : Uncollected s) (hok : s.result.ok = false) (htime : s.result.timedOut = false)
  | stopping (hpc : s.pc = .killWait ∨ ∃ i, s.pc = .termWait i) (hchild : Uncollected s)
      (hok : s.result.ok = false) (htime : s.result.timedOut = true)
      (hreason : s.result.reason = str "timeout")
  | draining (hpc : s.pc = .drain) (h : Collected s)
  | returned (hpc : s.pc = .returned) (h : Truthful s)

/-- The loop was left without the child's status. -/
def Lost (s : State) : Prop := (s.pc = .drain ∨ s.pc = .returned) ∧ Uncollected s

/-! ## What a step leaves alone -/

/-- The two states agree on whether the child is reaped and on the outcome so far. -/
structure Keeps (s s' : State) : Prop where
  reaped : ∀ w, s'.child = .reaped w ↔ s.child = .reaped w
  status : s'.status = s.status
  ok : s'.result.ok = s.result.ok
  timedOut : s'.result.timedOut = s.result.timedOut
  reason : s'.result.reason = s.result.reason

namespace Keeps
variable {s s' : State}

theorem refl (s : State) : Keeps s s := ⟨fun _ => Iff.rfl, rfl, rfl, rfl, rfl⟩

theorem uncollected (h : Keeps s s') (hs : Uncollected s) : Uncollected s' :=
  fun w hw => hs w ((h.reaped w).mp hw)

theorem collected (h : Keeps s s') (hs : Collected s) : Collected s' := by
  obtain ⟨w, hw, hok, hcase⟩ := hs
  refine ⟨w, (h.reaped w).mpr hw, h.ok.trans hok, ?_⟩
  rw [h.timedOut, h.reason, h.status]
  exact hcase

theorem truthful (h : Keeps s s') (hs : Truthful s) : Truthful s' := by
  obtain ⟨w, hw, hok, hreason⟩ := hs
  refine ⟨w, (h.reaped w).mpr hw, ?_, ?_⟩
  · rw [h.ok, h.timedOut]
    exact hok
  · rw [h.ok, h.reason]
    exact hreason

theorem inv (h : Keeps s s') (hpc : s'.pc = s.pc) (hs : Inv s) : Inv s' := by
  cases hs with
  | looping hp hchild hok htime =>
    exact .looping (hpc ▸ hp) (h.uncollected hchild) (h.ok.trans hok) (h.timedOut.trans htime)
  | stopping hp hchild hok htime hreason =>
    exact .stopping (hpc ▸ hp) (h.uncollected hchild) (h.ok.trans hok) (h.timedOut.trans htime)
      (h.reason.trans hreason)
  | draining hp hs => exact .draining (hpc.trans hp) (h.collected hs)
  | returned hp hs => exact .returned (hpc.trans hp) (h.truthful hs)

theorem lost (h : Keeps s s') (hpc : s'.pc = s.pc) (hs : Lost s) : Lost s' :=
  ⟨hpc ▸ hs.1, h.uncollected hs.2⟩

end Keeps

/-! ## What a step can do -/

variable {s s' : State}

theorem readPipe_keeps {r : ReadResult} (h : readPipe s r = some s') :
    Keeps s s' ∧ s'.pc = s.pc := by
  cases r with
  | bytes count =>
    simp only [readPipe, Option.ite_none_right_eq_some, Option.some.injEq] at h
    obtain ⟨-, rfl⟩ := h
    exact ⟨⟨fun _ => Iff.rfl, rfl, rfl, rfl, rfl⟩, rfl⟩
  | eof =>
    simp only [readPipe, Option.ite_none_right_eq_some, Option.some.injEq] at h
    obtain ⟨-, rfl⟩ := h
    exact ⟨.refl s, rfl⟩
  | failed =>
    cases h
    exact ⟨.refl s, rfl⟩

theorem readStep_cases {r : ReadResult} (h : readStep s r = some s') :
    (s.pc = .readLoop ∧ Keeps s s' ∧ (s'.pc = .readLoop ∨ s'.pc = .poll)) ∨
    (s.pc = .drain ∧ Keeps s s' ∧ s'.pc = .drain) ∨
    (s.pc = .drain ∧ ∃ s1, Keeps s s1 ∧
      s' = { s1 with result := finishResult s1.result s1.status, pc := .returned }) := by
  unfold readStep at h
  split at h
  · rename_i hpc
    obtain ⟨s1, hread, rfl⟩ := Option.map_eq_some_iff.mp h
    obtain ⟨hkeep, hpc1⟩ := readPipe_keeps hread
    refine .inl ⟨hpc, ?_⟩
    cases r with
    | bytes count => exact ⟨hkeep, .inl (hpc1.trans hpc)⟩
    | eof => exact ⟨⟨hkeep.1, hkeep.2, hkeep.3, hkeep.4, hkeep.5⟩, .inr rfl⟩
    | failed => exact ⟨⟨hkeep.1, hkeep.2, hkeep.3, hkeep.4, hkeep.5⟩, .inr rfl⟩
  · rename_i hpc
    obtain ⟨s1, hread, rfl⟩ := Option.map_eq_some_iff.mp h
    obtain ⟨hkeep, hpc1⟩ := readPipe_keeps hread
    cases r with
    | bytes count => exact .inr (.inl ⟨hpc, hkeep, hpc1.trans hpc⟩)
    | eof => exact .inr (.inr ⟨hpc, s1, hkeep, rfl⟩)
    | failed => exact .inr (.inr ⟨hpc, s1, hkeep, rfl⟩)
  · cases h

theorem waitChild_cases {r : WaitResult} (h : waitChild s r = some s') :
    (r = .reaped ∧ ∃ w, s.child = .zombie w ∧
      s' = { s with child := .reaped w, status := w.encode }) ∨ (r ≠ .reaped ∧ s' = s) := by
  cases r with
  | reaped =>
    simp only [waitChild] at h
    split at h
    · rename_i w hw
      cases h
      exact .inl ⟨rfl, w, hw, rfl⟩
    · cases h
  | notYet =>
    simp only [waitChild, Option.ite_none_right_eq_some, Option.some.injEq] at h
    exact .inr ⟨nofun, h.2.symm⟩
  | failed reason =>
    cases h
    exact .inr ⟨nofun, rfl⟩

/-- A wait reaps the child and leaves the loop, or goes on without leaving it, or leaves it without
the status. -/
theorem waitStep_cases {r : WaitResult} (h : waitStep s r = some s') :
    ((∃ w, s'.child = .reaped w ∧ s'.status = w.encode) ∧ s'.result = s.result ∧
      s'.pc = .drain ∧ (s.pc = .poll ∨ s.pc = .killWait ∨ ∃ i, s.pc = .termWait i) ∧
      Collects s (.wait r)) ∨
    (s'.child = s.child ∧ s'.result = s.result ∧ Collects s (.wait r) ∧
      ((s.pc = .poll ∧ s'.pc = .deadlineTest) ∨
        ∃ i, s.pc = .termWait i ∧ s'.pc = nextTermWait i)) ∨
    (s'.child = s.child ∧ s'.pc = .drain ∧ ¬ Collects s (.wait r)) := by
  unfold waitStep at h
  split at h
  · rename_i hpc
    obtain ⟨s1, hwait, rfl⟩ := Option.map_eq_some_iff.mp h
    rcases waitChild_cases hwait with ⟨rfl, w, hw, rfl⟩ | ⟨hr, rfl⟩
    · exact .inl ⟨⟨w, rfl, rfl⟩, rfl, rfl, .inl hpc, trivial⟩
    · cases r with
      | reaped => exact absurd rfl hr
      | failed reason => exact .inr (.inr ⟨rfl, rfl, fun hc => hc.1 hpc⟩)
      | notYet =>
        by_cases hdone : s1.childDone = true
        · rw [if_pos hdone]
          exact .inr (.inr ⟨rfl, rfl, fun hc => hc ⟨hpc, hdone⟩⟩)
        · rw [if_neg hdone]
          exact .inr (.inl ⟨rfl, rfl, fun hc => hdone hc.2, .inl ⟨hpc, rfl⟩⟩)
  · rename_i i hpc
    obtain ⟨s1, hwait, rfl⟩ := Option.map_eq_some_iff.mp h
    rcases waitChild_cases hwait with ⟨rfl, w, hw, rfl⟩ | ⟨hr, rfl⟩
    · exact .inl ⟨⟨w, rfl, rfl⟩, rfl, rfl, .inr (.inr ⟨i, hpc⟩), trivial⟩
    · cases r with
      | reaped => exact absurd rfl hr
      | failed reason =>
        exact .inr (.inl ⟨rfl, rfl, by simp [Collects, hpc], .inr ⟨i, hpc, rfl⟩⟩)
      | notYet => exact .inr (.inl ⟨rfl, rfl, by simp [Collects, hpc], .inr ⟨i, hpc, rfl⟩⟩)
  · rename_i hpc
    cases r with
    | notYet => cases h
    | reaped =>
      obtain ⟨s1, hwait, rfl⟩ := Option.map_eq_some_iff.mp h
      obtain ⟨-, w, hw, rfl⟩ | ⟨hr, -⟩ := waitChild_cases hwait
      · exact .inl ⟨⟨w, rfl, rfl⟩, rfl, rfl, .inr (.inl hpc), trivial⟩
      · exact absurd rfl hr
    | failed reason =>
      obtain ⟨s1, hwait, rfl⟩ := Option.map_eq_some_iff.mp h
      cases hwait
      exact .inr (.inr ⟨rfl, rfl, fun hc => hc.2 hpc⟩)
  · cases h

theorem deadlineStep_cases (h : deadlineStep s = some s') :
    s.pc = .deadlineTest ∧ s'.child = s.child ∧
      ((s' = { s with pc := .readLoop }) ∨
        (s'.pc = .termWait 0 ∧ s'.result.ok = s.result.ok ∧ s'.result.timedOut = true ∧
          s'.result.reason = str "timeout")) := by
  simp only [deadlineStep, Option.ite_none_right_eq_some] at h
  obtain ⟨hpc, h⟩ := h
  split at h
  · cases h
    exact ⟨hpc, rfl, .inr ⟨rfl, rfl, rfl, rfl⟩⟩
  · cases h
    exact ⟨hpc, rfl, .inl rfl⟩

/-- The child's own moves and the clock touch nothing that the parent has collected. -/
theorem step_env_keeps {m : Move} (h : step m s = some s')
    (hm : (∀ r, m ≠ .read r) ∧ (∀ r, m ≠ .wait r) ∧ m ≠ .compareClock) :
    Keeps s s' ∧ s'.pc = s.pc := by
  cases m with
  | read r => exact absurd rfl (hm.1 r)
  | wait r => exact absurd rfl (hm.2.1 r)
  | compareClock => exact absurd rfl hm.2.2
  | tick =>
    cases h
    exact ⟨⟨fun _ => Iff.rfl, rfl, rfl, rfl, rfl⟩, rfl⟩
  | write bytes =>
    simp only [step, Option.ite_none_right_eq_some, Option.some.injEq] at h
    obtain ⟨-, rfl⟩ := h
    exact ⟨⟨fun _ => Iff.rfl, rfl, rfl, rfl, rfl⟩, rfl⟩
  | closeStdout =>
    simp only [step, Option.ite_none_right_eq_some, Option.some.injEq] at h
    obtain ⟨-, rfl⟩ := h
    exact ⟨⟨fun _ => Iff.rfl, rfl, rfl, rfl, rfl⟩, rfl⟩
  | terminate w =>
    simp only [step, Option.ite_none_right_eq_some, Option.some.injEq] at h
    obtain ⟨hrun, rfl⟩ := h
    refine ⟨⟨fun w' => ?_, rfl, rfl, rfl, rfl⟩, rfl⟩
    simp [hrun]

/-! ## Finishing -/

theorem encode_exited_zero_iff (w : WaitStatus) :
    wifexited w.encode = true ∧ wexitstatus w.encode = 0 ↔ w = .exited 0 := by
  cases w with
  | exited code =>
    rw [wifexited_exited, wexitstatus_exited]
    constructor
    · rintro ⟨-, h⟩
      have hzero : code = 0 := UInt8.toNat_inj.mp h
      rw [hzero]
    · rintro h
      cases h
      exact ⟨rfl, rfl⟩
  | signaled signal core => simp [wifexited_signaled]

theorem finishResult_terminated {result : CommandResult} {status : ℕ}
    (htime : result.timedOut = false) (hexit : wifexited status = false) :
    finishResult result status = { result with reason := str "terminated" } := by
  unfold finishResult
  rw [if_neg (by rw [htime]; exact nofun), if_pos (by rw [hexit]; rfl)]

theorem finishResult_exited_zero {result : CommandResult} {status : ℕ}
    (htime : result.timedOut = false) (hexit : wifexited status = true)
    (hcode : wexitstatus status = 0) :
    finishResult result status = { result with exitCode := 0, ok := true } := by
  unfold finishResult
  rw [if_neg (by rw [htime]; exact nofun), if_neg (by rw [hexit]; exact nofun), hcode]
  rfl

theorem finishResult_exited {result : CommandResult} {status : ℕ}
    (htime : result.timedOut = false) (hexit : wifexited status = true)
    (hcode : wexitstatus status ≠ 0) :
    finishResult result status =
      { result with
        exitCode := wexitstatus status
        reason := if (wexitstatus status : ℤ) = 1 then str "command failed"
          else str "exit " ++ intText (wexitstatus status) } := by
  unfold finishResult
  rw [if_neg (by rw [htime]; exact nofun), if_neg (by rw [hexit]; exact nofun)]
  exact if_pos (Int.natCast_ne_zero.mpr hcode)

theorem finishResult_timedOut_eq (result : CommandResult) (status : ℕ) :
    (finishResult result status).timedOut = result.timedOut := by
  by_cases htime : result.timedOut = true
  · exact congrArg CommandResult.timedOut (if_pos htime)
  · rw [Bool.not_eq_true] at htime
    by_cases hexit : wifexited status = true
    · by_cases hcode : wexitstatus status = 0
      · rw [finishResult_exited_zero htime hexit hcode]
      · rw [finishResult_exited htime hexit hcode]
    · rw [finishResult_terminated htime (Bool.not_eq_true _ ▸ hexit)]

theorem finishResult_ok_iff {result : CommandResult} (htime : result.timedOut = false)
    (hok : result.ok = false) (status : ℕ) :
    (finishResult result status).ok = true ↔ wifexited status = true ∧ wexitstatus status = 0 := by
  by_cases hexit : wifexited status = true
  · by_cases hcode : wexitstatus status = 0
    · rw [finishResult_exited_zero htime hexit hcode]
      exact ⟨fun _ => ⟨hexit, hcode⟩, fun _ => rfl⟩
    · rw [finishResult_exited htime hexit hcode]
      exact ⟨fun h => absurd (hok.symm.trans h) nofun, fun h => absurd h.2 hcode⟩
  · rw [finishResult_terminated htime (Bool.not_eq_true _ ▸ hexit)]
    exact ⟨fun h => absurd (hok.symm.trans h) nofun, fun h => absurd h.1 hexit⟩

theorem finishResult_reason {result : CommandResult} {status : ℕ} (htime : result.timedOut = false)
    (hfail : (finishResult result status).ok = false) :
    (finishResult result status).reason ≠ [] := by
  by_cases hexit : wifexited status = true
  · by_cases hcode : wexitstatus status = 0
    · rw [finishResult_exited_zero htime hexit hcode] at hfail
      cases hfail
    · rw [finishResult_exited htime hexit hcode]
      show (if (wexitstatus status : ℤ) = 1 then str "command failed"
        else str "exit " ++ intText (wexitstatus status)) ≠ []
      split
      · simp
      · exact List.append_ne_nil_of_left_ne_nil (by simp) _
  · rw [finishResult_terminated htime (Bool.not_eq_true _ ▸ hexit)]
    show str "terminated" ≠ []
    simp

/-- With the reaped child's status the last part of the function tells the truth. -/
theorem Collected.finish (h : Collected s) :
    Truthful { s with result := finishResult s.result s.status, pc := .returned } := by
  obtain ⟨w, hw, hok, ⟨htime, hreason⟩ | ⟨htime, hstatus⟩⟩ := h
  · have hfinish : finishResult s.result s.status = s.result := if_pos htime
    refine ⟨w, hw, ?_, fun _ => ?_⟩
    · show (finishResult s.result s.status).ok = true ↔
        w = .exited 0 ∧ (finishResult s.result s.status).timedOut = false
      rw [hfinish, hok, htime]
      exact ⟨nofun, nofun⟩
    · show (finishResult s.result s.status).reason ≠ []
      rw [hfinish, hreason]
      simp
  · refine ⟨w, hw, ?_, finishResult_reason htime⟩
    show (finishResult s.result s.status).ok = true ↔
      w = .exited 0 ∧ (finishResult s.result s.status).timedOut = false
    rw [finishResult_ok_iff htime hok, hstatus, encode_exited_zero_iff, finishResult_timedOut_eq]
    exact (and_iff_left htime).symm

/-! ## Steps -/

theorem nextTermWait_stopping (i : ℕ) :
    nextTermWait i = .killWait ∨ ∃ j, nextTermWait i = .termWait j := by
  unfold nextTermWait
  split
  · exact .inr ⟨i + 1, rfl⟩
  · exact .inl rfl

/-! The invariant, read at each place of the parent. -/

theorem Inv.atLoop (hs : Inv s)
    (hpc : s.pc = .readLoop ∨ s.pc = .poll ∨ s.pc = .deadlineTest) :
    Uncollected s ∧ s.result.ok = false ∧ s.result.timedOut = false := by
  cases hs with
  | looping _ hchild hok htime => exact ⟨hchild, hok, htime⟩
  | stopping hp => rcases hp with hp | ⟨i, hp⟩ <;> simp [hp] at hpc
  | draining hp => simp [hp] at hpc
  | returned hp => simp [hp] at hpc

theorem Inv.atStop (hs : Inv s) (hpc : s.pc = .killWait ∨ ∃ i, s.pc = .termWait i) :
    Uncollected s ∧ s.result.ok = false ∧ s.result.timedOut = true ∧
      s.result.reason = str "timeout" := by
  cases hs with
  | looping hp => rcases hp with hp | hp | hp <;> simp [hp] at hpc
  | stopping _ hchild hok htime hreason => exact ⟨hchild, hok, htime, hreason⟩
  | draining hp => simp [hp] at hpc
  | returned hp => simp [hp] at hpc

theorem Inv.atDrain (hs : Inv s) (hpc : s.pc = .drain) : Collected s := by
  cases hs with
  | looping hp => simp [hpc] at hp
  | stopping hp => simp [hpc] at hp
  | draining _ h => exact h
  | returned hp => simp [hpc] at hp

theorem Inv.truthful (hs : Inv s) (hpc : s.pc = .returned) : Truthful s := by
  cases hs with
  | looping hp => simp [hpc] at hp
  | stopping hp => simp [hpc] at hp
  | draining hp => simp [hpc] at hp
  | returned _ h => exact h

theorem inv_read {r : ReadResult} (hs : Inv s) (h : readStep s r = some s') : Inv s' := by
  rcases readStep_cases h with ⟨hpc, hkeep, hpc'⟩ | ⟨hpc, hkeep, hpc'⟩ | ⟨hpc, s1, hkeep, rfl⟩
  · obtain ⟨hchild, hok, htime⟩ := hs.atLoop (.inl hpc)
    exact .looping (hpc'.elim .inl fun h => .inr (.inl h)) (hkeep.uncollected hchild)
      (hkeep.ok.trans hok) (hkeep.timedOut.trans htime)
  · exact hkeep.inv (hpc'.trans hpc.symm) hs
  · exact .returned rfl (hkeep.collected (hs.atDrain hpc)).finish

theorem inv_wait {r : WaitResult} (hs : Inv s) (hgood : Collects s (.wait r))
    (h : waitStep s r = some s') : Inv s' := by
  rcases waitStep_cases h with ⟨⟨w, hw, hstatus⟩, hresult, hpc', hpc, -⟩ |
    ⟨hchild', hresult, -, ⟨hpc, hpc'⟩ | ⟨i, hpc, hpc'⟩⟩ | ⟨-, -, hlost⟩
  · refine .draining hpc' ⟨w, hw, ?_⟩
    rw [hresult]
    rcases hpc with hpc | hpc
    · obtain ⟨-, hok, htime⟩ := hs.atLoop (.inr (.inl hpc))
      exact ⟨hok, .inr ⟨htime, hstatus⟩⟩
    · obtain ⟨-, hok, htime, hreason⟩ := hs.atStop hpc
      exact ⟨hok, .inl ⟨htime, hreason⟩⟩
  · obtain ⟨hchild, hok, htime⟩ := hs.atLoop (.inr (.inl hpc))
    exact .looping (.inr (.inr hpc')) (fun w => hchild' ▸ hchild w) (hresult ▸ hok)
      (hresult ▸ htime)
  · obtain ⟨hchild, hok, htime, hreason⟩ := hs.atStop (.inr ⟨i, hpc⟩)
    exact .stopping (hpc' ▸ nextTermWait_stopping i) (fun w => hchild' ▸ hchild w)
      (hresult ▸ hok) (hresult ▸ htime) (hresult ▸ hreason)
  · exact absurd hgood hlost

theorem inv_deadline (hs : Inv s) (h : deadlineStep s = some s') : Inv s' := by
  obtain ⟨hpc, hchild', hcase⟩ := deadlineStep_cases h
  obtain ⟨hchild, hok, htime⟩ := hs.atLoop (.inr (.inr hpc))
  rcases hcase with rfl | ⟨hpc', hok', htime', hreason'⟩
  · exact .looping (.inl rfl) hchild hok htime
  · exact .stopping (.inr ⟨0, hpc'⟩) (fun w => hchild' ▸ hchild w) (hok'.trans hok) htime' hreason'

/-- A collecting step keeps the invariant. -/
theorem inv_step {m : Move} (hs : Inv s) (hgood : Collects s m) (h : step m s = some s') :
    Inv s' := by
  cases m with
  | read r => exact inv_read hs h
  | wait r => exact inv_wait hs hgood h
  | compareClock => exact inv_deadline hs h
  | write _ | closeStdout | terminate _ | tick =>
    obtain ⟨hkeep, hpc⟩ := step_env_keeps h ⟨nofun, nofun, nofun⟩
    exact hkeep.inv hpc hs

/-- Any other step leaves the loop with the child uncollected. -/
theorem lost_of_not_collects {m : Move} (hs : Inv s) (hbad : ¬ Collects s m)
    (h : step m s = some s') : Lost s' := by
  cases m with
  | wait r =>
    rcases waitStep_cases h with ⟨-, -, -, -, hgood⟩ | ⟨-, -, hgood, -⟩ | ⟨hchild', hpc', -⟩
    · exact absurd hgood hbad
    · exact absurd hgood hbad
    · refine ⟨.inl hpc', fun w hw => ?_⟩
      rw [hchild'] at hw
      cases hs with
      | looping _ hchild => exact hchild w hw
      | stopping _ hchild => exact hchild w hw
      | draining hp =>
        cases r <;> simp [Collects, hp] at hbad
      | returned hp =>
        cases r <;> simp [Collects, hp] at hbad
  | read _ | compareClock | write _ | closeStdout | terminate _ | tick =>
    exact absurd trivial hbad

/-- After the loop no `waitpid` is called any more. -/
theorem lost_step {m : Move} (hs : Lost s) (h : step m s = some s') : Lost s' := by
  obtain ⟨hpc, hchild⟩ := hs
  cases m with
  | read r =>
    rcases readStep_cases h with ⟨hp, -⟩ | ⟨-, hkeep, hpc'⟩ | ⟨-, s1, hkeep, rfl⟩
    · simp [hp] at hpc
    · exact ⟨.inl hpc', hkeep.uncollected hchild⟩
    · exact ⟨.inr rfl, hkeep.uncollected hchild⟩
  | wait r =>
    rcases hpc with hpc | hpc <;> simp [step, waitStep, hpc] at h
  | compareClock =>
    obtain ⟨hp, -⟩ := deadlineStep_cases h
    simp [hp] at hpc
  | write _ | closeStdout | terminate _ | tick =>
    obtain ⟨hkeep, hp⟩ := step_env_keeps h ⟨nofun, nofun, nofun⟩
    exact hkeep.lost hp ⟨hpc, hchild⟩

/-! ## Runs -/

theorem spawned_inv (deadline : ℕ) : Inv (spawned deadline) :=
  .looping (.inl rfl) nofun rfl rfl

/-- Over every interleaving of the parent, the child and the clock after a successful spawn, what the
function returns is the truth about the child exactly when every exit from the loop collected a
status. -/
theorem run_truthful_iff {args : List Text} {pipeError : Option Text}
    {spawnError : Option (Bool × Text)} {deadline : ℕ} {start : State}
    (hlaunch : launch args pipeError spawnError deadline = .inr start) {moves : List Move}
    {final : State} (h : run step moves start = some final) (hpc : final.pc = .returned) :
    Truthful final ↔ Always step Collects moves start := by
  obtain ⟨reason, hfailed⟩ | ⟨-, -, -, hspawned⟩ := launch_cases args pipeError spawnError deadline
  · cases hfailed.symm.trans hlaunch
  obtain rfl : spawned deadline = start := Sum.inr.inj (hspawned.symm.trans hlaunch)
  rcases run_dichotomy (fun _ _ _ => inv_step) (fun _ _ _ => lost_of_not_collects)
    (fun _ _ _ => lost_step) (spawned_inv deadline) h with ⟨hall, hinv⟩ | ⟨hnot, -, hchild⟩
  · exact iff_of_true (hinv.truthful hpc) hall
  · refine iff_of_false (fun htrue => ?_) hnot
    obtain ⟨w, hw, -⟩ := htrue
    exact hchild w hw

/-- A child that writes a byte, closes its standard output, exits with 0 and is reaped. -/
def plainRun : List Move :=
  [.write ['x'], .read (.bytes 1), .closeStdout, .terminate (.exited 0), .read .eof,
    .wait .reaped, .read .eof]

theorem run_truthful_iff_plainRun :
    ∃ start final, launch [str "ps", str "-ax"] none none 8 = .inr start ∧
      run step plainRun start = some final ∧ final.result.ok = true ∧
      (Truthful final ↔ Always step Collects plainRun start) :=
  have hlaunch : launch [str "ps", str "-ax"] none none 8 = .inr (spawned 8) := rfl
  ⟨_, _, hlaunch, rfl, by decide, run_truthful_iff hlaunch rfl rfl⟩

/-- A child that closes its standard output and only then exits with 3. -/
def earlyEofRun : List Move :=
  [.closeStdout, .read .eof, .wait .notYet, .terminate (.exited 3), .read .eof]

/-- It is reported as a success and never reaped. -/
theorem earlyEofRun_ok :
    ∃ final, run step earlyEofRun (spawned 8) = some final ∧ final.pc = .returned ∧
      final.result.ok = true ∧ final.child = .zombie (.exited 3) ∧ ¬ Truthful final := by
  refine ⟨_, rfl, rfl, by decide, rfl, ?_⟩
  rintro ⟨w, hw, -⟩
  cases hw

end Mtop.Capture
