import Mtop.Library.CxxString
import Mtop.Library.Run

/-! `run_command_capture_result` after the spawn: the parent's polling loop, step by step, against a
child that writes, closes its end of the pipe and terminates whenever it likes. Each call of the
parent is one step; what the system answers is part of the move. -/
namespace Mtop.Capture
open Cxx Machine
set_option autoImplicit false

/-! ## Wait status -/

/-- How a child ended: with an exit code, or by a signal. -/
inductive WaitStatus where
  | exited (code : UInt8)
  | signaled (signal : {n : ℕ // 0 < n ∧ n < 127}) (core : Bool)
  deriving DecidableEq

/-- The `status` word that `waitpid` stores. -/
def WaitStatus.encode : WaitStatus → ℕ
  | .exited code => code.toNat * 256
  | .signaled signal core => signal.1 + if core then 128 else 0

def wifexited (status : ℕ) : Bool := status % 128 = 0

def wexitstatus (status : ℕ) : ℕ := status / 256 % 256

theorem wifexited_exited (code : UInt8) : wifexited (WaitStatus.exited code).encode = true := by
  show decide (code.toNat * 256 % 128 = 0) = true
  exact decide_eq_true (by omega)

theorem wexitstatus_exited (code : UInt8) :
    wexitstatus (WaitStatus.exited code).encode = code.toNat := by
  have := code.toNat_lt
  simp only [wexitstatus, WaitStatus.encode]
  omega

theorem wifexited_signaled (signal : {n : ℕ // 0 < n ∧ n < 127}) (core : Bool) :
    wifexited (WaitStatus.signaled signal core).encode = false := by
  have := signal.2
  cases core <;> simp [wifexited, WaitStatus.encode] <;> omega

/-! ## State -/

inductive ChildState where
  | running
  | zombie (status : WaitStatus)
  | reaped (status : WaitStatus)
  deriving DecidableEq

structure CommandResult where
  ok : Bool := false
  timedOut : Bool := false
  exitCode : ℤ := -1
  output : Text := []
  reason : Text := []
  deriving DecidableEq

/-- Where the parent stands. -/
inductive Pc where
  /-- the inner `read` loop -/
  | readLoop
  /-- `waitpid(pid, &status, WNOHANG)` -/
  | poll
  /-- the comparison with the deadline -/
  | deadlineTest
  /-- the `i`-th `waitpid` after SIGTERM -/
  | termWait (i : ℕ)
  /-- the blocking `waitpid` after SIGKILL -/
  | killWait
  /-- the `read` loop after the main loop -/
  | drain
  | returned
  deriving DecidableEq

structure State where
  pipe : Text := []
  writersOpen : Bool := true
  child : ChildState := .running
  now : ℕ := 0
  deadline : ℕ
  pc : Pc := .readLoop
  status : ℕ := 0
  childDone : Bool := false
  result : CommandResult := {}
  deriving DecidableEq

/-! ## Moves -/

inductive ReadResult where
  | bytes (count : ℕ)
  | eof
  | failed
  deriving DecidableEq

inductive WaitResult where
  | reaped
  | notYet
  | failed (reason : Text)
  deriving DecidableEq

inductive Move where
  | write (bytes : Text)
  | closeStdout
  | terminate (status : WaitStatus)
  | tick
  | read (result : ReadResult)
  | wait (result : WaitResult)
  | compareClock
  deriving DecidableEq

/-- `read` on the pipe: data while there is any, 0 once all write ends are closed. -/
def readPipe (s : State) : ReadResult → Option State
  | .bytes count =>
    if 0 < count ∧ count ≤ 4096 ∧ count ≤ s.pipe.length then
      some { s with
        pipe := s.pipe.drop count
        result := { s.result with output := s.result.output ++ s.pipe.take count } }
    else none
  | .eof => if s.pipe = [] ∧ s.writersOpen = false then some s else none
  | .failed => some s

/-- `waitpid` on the child: it stores the status only when it reaps. -/
def waitChild (s : State) : WaitResult → Option State
  | .reaped =>
    match s.child with
    | .zombie w => some { s with child := .reaped w, status := w.encode }
    | _ => none
  | .notYet => if s.child = .running then some s else none
  | .failed _ => some s

/-- The part of the function after the last `read`. -/
def finishResult (result : CommandResult) (status : ℕ) : CommandResult :=
  if result.timedOut then result
  else if !wifexited status then { result with reason := str "terminated" }
  else
    let result := { result with exitCode := wexitstatus status }
    if result.exitCode ≠ 0 then
      { result with
        reason := if result.exitCode = 1 then str "command failed"
          else str "exit " ++ intText result.exitCode }
    else { result with ok := true }

def readStep (s : State) (r : ReadResult) : Option State :=
  match s.pc with
  | .readLoop => (readPipe s r).map fun s =>
      match r with
      | .bytes _ => s
      | .eof => { s with childDone := true, pc := .poll }
      | .failed => { s with pc := .poll }
  | .drain => (readPipe s r).map fun s =>
      match r with
      | .bytes _ => s
      | _ => { s with result := finishResult s.result s.status, pc := .returned }
  | _ => none

/-- Both waits of the timeout branch: the reaped child ends it. -/
def nextTermWait (i : ℕ) : Pc := if i + 1 < 10 then .termWait (i + 1) else .killWait

def waitStep (s : State) (r : WaitResult) : Option State :=
  match s.pc with
  | .poll => (waitChild s r).map fun s =>
      match r with
      | .reaped => { s with childDone := true, pc := .drain }
      | .failed reason => { s with result := { s.result with reason }, pc := .drain }
      | .notYet => if s.childDone then { s with pc := .drain } else { s with pc := .deadlineTest }
  | .termWait i => (waitChild s r).map fun s =>
      match r with
      | .reaped => { s with childDone := true, pc := .drain }
      | _ => { s with pc := nextTermWait i }
  | .killWait =>
    match r with
    | .notYet => none
    | _ => (waitChild s r).map fun s => { s with pc := .drain }
  | _ => none

def deadlineStep (s : State) : Option State :=
  if s.pc = .deadlineTest then
    if s.now ≥ s.deadline then
      some { s with
        result := { s.result with timedOut := true, reason := str "timeout" }
        pc := .termWait 0 }
    else some { s with pc := .readLoop }
  else none

def step : Move → State → Option State
  | .write bytes, s => if s.writersOpen then some { s with pipe := s.pipe ++ bytes } else none
  | .closeStdout, s => if s.writersOpen then some { s with writersOpen := false } else none
  | .terminate w, s => if s.child = .running then some { s with child := .zombie w } else none
  | .tick, s => some { s with now := s.now + 1 }
  | .read r, s => readStep s r
  | .wait r, s => waitStep s r
  | .compareClock, s => deadlineStep s

/-- The state in which the loop starts. -/
def spawned (deadline : ℕ) : State := { deadline }

/-- What comes before the loop: an empty command, a `pipe` error or a `posix_spawn` error returns
at once. `denied` says that the spawn error is `EACCES`. -/
def launch (args : List Text) (pipeError : Option Text) (spawnError : Option (Bool × Text))
    (deadline : ℕ) : CommandResult ⊕ State :=
  if args = [] then .inl { reason := str "empty command" }
  else match pipeError with
    | some reason => .inl { reason }
    | none =>
      match spawnError with
      | some (denied, reason) =>
        .inl { reason := if denied then str "permission denied" else reason }
      | none => .inr (spawned deadline)

/-- Only a spawned child gets the loop; everything before it is a failure without an exit code. -/
theorem launch_cases (args : List Text) (pipeError : Option Text)
    (spawnError : Option (Bool × Text)) (deadline : ℕ) :
    (∃ reason, launch args pipeError spawnError deadline = .inl { reason }) ∨
      (args ≠ [] ∧ pipeError = none ∧ spawnError = none ∧
        launch args pipeError spawnError deadline = .inr (spawned deadline)) := by
  unfold launch
  split
  · exact .inl ⟨_, rfl⟩
  · rename_i hargs
    cases pipeError with
    | some reason => exact .inl ⟨reason, rfl⟩
    | none =>
      cases spawnError with
      | some error => exact .inl ⟨_, rfl⟩
      | none => exact .inr ⟨hargs, rfl, rfl, rfl⟩

end Mtop.Capture
