import Mathlib.Tactic.IntervalCases
import Mtop.Ui.SearchTour

/-! Typing the number of a process: digits that are typed in one go make a number, and the first row
whose pid begins with it is selected. -/
namespace Mtop
open Cxx
set_option autoImplicit false

/-! ## Pids in decimal -/

theorem natText_prefix_le {m n : ℕ} (h : natText m <+: natText n) : m ≤ n := by
  obtain ⟨rest, hrest⟩ := h
  have hvalue := congrArg (fun text => Nat.ofDigitChars 10 text 0) hrest
  unfold natText at hvalue
  rw [Nat.ofDigitChars_append, Nat.ofDigitChars_ten_toDigits, Nat.ofDigitChars_ten_toDigits,
    Nat.ofDigitChars_eq_ofDigitChars_zero] at hvalue
  calc m ≤ 10 ^ rest.length * m := Nat.le_mul_of_pos_left m (Nat.pow_pos (by decide))
    _ ≤ 10 ^ rest.length * m + Nat.ofDigitChars 10 rest 0 := Nat.le_add_right _ _
    _ = n := hvalue

/-- A number is not less than one it begins with. -/
theorem intText_prefix_le {m n : ℤ} (hm : 0 ≤ m) (h : intText m <+: intText n) : m ≤ n := by
  unfold intText at h
  rw [if_neg (not_lt.mpr hm)] at h
  split at h
  · obtain ⟨c, digits, hdigits, hc⟩ := natText_cons m.natAbs
    rw [hdigits] at h
    rw [(List.cons_prefix_cons.mp h).1] at hc
    cases hc
  · have hle := natText_prefix_le h
    omega

theorem startsWith_iff {text needle : Text} : startsWith text needle = true ↔ needle <+: text :=
  List.isPrefixOf_iff_prefix

/-- In a table in the order of the pids, the first pid that begins with the digits of a listed one is
that one. -/
theorem find?_pid {rows : List ProcessRow} (hrows : (rowPids rows).Pairwise (· < ·))
    {row : ProcessRow} (hrow : row ∈ rows) (hpid : 0 ≤ row.process.pid) :
    rows.find? (fun other => startsWith (intText other.process.pid) (intText row.process.pid)) =
      some row := by
  obtain ⟨before, after, rfl⟩ := List.append_of_mem hrow
  refine List.find?_eq_some_iff_append.mpr
    ⟨startsWith_iff.mpr (List.prefix_refl _), before, after, rfl, fun other hother => ?_⟩
  have hless : other.process.pid < row.process.pid := by
    unfold rowPids at hrows
    rw [List.pairwise_map, List.pairwise_append] at hrows
    exact hrows.2.2 other hother row List.mem_cons_self
  rw [Bool.not_eq_true', Bool.eq_false_iff]
  intro hstarts
  have hle := intText_prefix_le hpid (startsWith_iff.mp hstarts)
  omega

/-- In the order of the pids the table is sorted by them. -/
theorem frameRows_ascending (σ : StdSort) {snapshot : SystemSnapshot} {state : UiState}
    (hpids : (snapshot.processes.map (·.pid)).Nodup) (hsort : state.sort = .pid)
    (hdirection : 0 < state.sortDirection)
    (htree : state.viewMode ≠ .gpuActive → state.treeMode = false)
    (hprofile : state.viewProfile = .beta) :
    (rowPids (frameRows σ snapshot state)).Pairwise (· < ·) := by
  have hsorted : ∀ keep : ProcessSnapshot → Bool,
      (rowPids ((σ.sort (rowLess state) (snapshot.processes.filter keep)).map
        fun process => { process })).Pairwise (· < ·) := by
    intro keep
    have horder := σ.sortedOn (rowLess state) (snapshot.processes.filter keep)
      (rowLess_strictWeakOn fun process _ => by rw [hsort]; exact ⟨nofun, nofun⟩)
    have hdistinct : ((σ.sort (rowLess state) (snapshot.processes.filter keep)).map (·.pid)).Nodup :=
      ((σ.perm _ _).map _).nodup_iff.mpr (hpids.sublist (List.filter_sublist.map _))
    unfold rowPids
    rw [List.map_map, List.pairwise_map]
    refine (horder.and (List.pairwise_map.mp hdistinct)).imp fun {a b} h => ?_
    obtain ⟨hless, hne⟩ := h
    unfold rowLess processSortLess compareOr at hless
    rw [hsort] at hless
    dsimp only at hless
    rw [if_neg (by simpa using Ne.symm hne), if_pos hdirection, decide_eq_false_iff_not] at hless
    show a.pid < b.pid
    omega
  unfold frameRows
  split
  · exact hsorted _
  · rename_i hview
    unfold buildProcessRows
    rw [htree fun hgpu => hview ⟨hprofile, hgpu⟩]
    exact hsorted _

/-! ## The number -/

/-- What a digit typed now is appended to. -/
def UiState.pidTyped (state : UiState) (now : ℕ) : Text :=
  if now > state.pidSearchDeadline then [] else state.pidSearch

/-- Eight digits at most make a number; the ninth one clears it. -/
def pidNumber (digits : Text) : Text := digits.drop (digits.length / 9 * 9)

theorem length_pidNumber (digits : Text) : (pidNumber digits).length = digits.length % 9 := by
  unfold pidNumber
  rw [List.length_drop]
  omega

theorem pidNumber_concat (digits : Text) (c : Char) :
    pidNumber (digits ++ [c]) =
      if (pidNumber digits ++ [c]).length > 8 then [] else pidNumber digits ++ [c] := by
  have hlength := length_pidNumber digits
  unfold pidNumber at hlength ⊢
  rw [List.length_append, List.length_append, hlength, List.length_singleton]
  split_ifs with hnine
  · rw [show (digits.length + 1) / 9 * 9 = digits.length + 1 by omega]
    exact List.drop_eq_nil_of_le (by rw [List.length_append, List.length_singleton])
  · rw [show (digits.length + 1) / 9 = digits.length / 9 by omega]
    exact List.drop_append_of_le_length (Nat.div_mul_le_self _ _)

/-- The row that a number selects, if any. -/
def pidRow (rows : List ProcessRow) (number : Text) : Option ProcessRow :=
  if number = [] then none
  else rows.find? fun row => startsWith (intText row.process.pid) number

section Digit
variable {state : UiState} {now : ℕ} {digits : Text} (h : state.pidTyped now = pidNumber digits)
  (rows : List ProcessRow) (c : Char)
include h

theorem applyPidSearch_number :
    (state.applyPidSearch now rows c).pidSearch = pidNumber (digits ++ [c]) := by
  unfold UiState.pidTyped at h
  rw [pidNumber_concat]
  unfold UiState.applyPidSearch
  dsimp only
  rw [h]
  split
  · rfl
  · split <;> rfl

/-- The next digit is appended if it comes in time. -/
theorem applyPidSearch_typed {later : ℕ} (hlater : later ≤ now + 1500) :
    (state.applyPidSearch now rows c).pidTyped later = pidNumber (digits ++ [c]) := by
  have hnumber := applyPidSearch_number h rows c
  by_cases hnine : (pidNumber digits ++ [c]).length > 8
  · rw [pidNumber_concat, if_pos hnine] at hnumber ⊢
    unfold UiState.pidTyped
    rw [hnumber]
    split <;> rfl
  · have hdeadline : (state.applyPidSearch now rows c).pidSearchDeadline = now + 1500 := by
      unfold UiState.pidTyped at h
      unfold UiState.applyPidSearch
      dsimp only
      rw [h, if_neg hnine]
      split <;> rfl
    unfold UiState.pidTyped
    rw [hdeadline, if_neg (by omega), hnumber]

theorem applyPidSearch_selected :
    (state.applyPidSearch now rows c).selectedPid =
      ((pidRow rows (pidNumber (digits ++ [c]))).map (·.process.pid)).or state.selectedPid := by
  unfold UiState.pidTyped at h
  rw [pidNumber_concat]
  unfold UiState.applyPidSearch pidRow
  dsimp only
  rw [h]
  by_cases hnine : (pidNumber digits ++ [c]).length > 8
  · rw [if_pos hnine, if_pos hnine, if_pos rfl]
    rfl
  · have hne : pidNumber digits ++ [c] ≠ [] :=
      List.append_ne_nil_of_right_ne_nil _ (List.cons_ne_nil _ _)
    rw [if_neg hnine, if_neg hnine, if_neg hne]
    cases hfind : rows.find? fun row =>
        startsWith (intText row.process.pid) (pidNumber digits ++ [c]) with
    | some row => rfl
    | none => rfl

end Digit

/-! ## Typing -/

/-- What is pressed and when; `ERR` stands for no key. -/
def Move.press : Move → Option (ℤ × ℕ)
  | .frame .. => none
  | .input event env => if event.key = err then none else some (event.key, env.now)

def presses (moves : List Move) : List (ℤ × ℕ) := moves.filterMap Move.press

theorem presses_input (event : InputEvent) (env : InputEnv) (moves : List Move) :
    presses (.input event env :: moves) =
      if event.key = err then presses moves else (event.key, env.now) :: presses moves := by
  unfold presses
  by_cases hkey : event.key = err
  · have hpress : Move.press (.input event env) = none := if_pos hkey
    rw [List.filterMap_cons_none hpress, if_pos hkey]
  · have hpress : Move.press (.input event env) = some (event.key, env.now) := if_neg hkey
    rw [List.filterMap_cons_some hpress, if_neg hkey]

/-- The presses of these digits. -/
def digitPresses (typed : List (Char × ℕ)) : List (ℤ × ℕ) :=
  typed.map fun press => (key press.1, press.2)

/-- Digits with no pause of more than a second and a half between them, the first one at a time of
some kind. -/
def Timely (start : ℕ → Prop) : List (Char × ℕ) → Prop
  | [] => True
  | press :: typed => press.1.isDigit = true ∧ start press.2 ∧ Timely (· ≤ press.2 + 1500) typed

theorem command_digit {c : Char} (h : c.isDigit = true) : command (key c) = .other := by
  obtain ⟨hlow, hhigh⟩ := toNat_of_isDigit h
  unfold key
  generalize c.toNat = n at hlow hhigh
  interval_cases n <;> decide

/-- Nothing is open in front of a table of processes. -/
structure Listing (before state : UiState) : Prop where
  closed : state.openCount = 0
  listing : state.listing = before.listing

section Keys
variable {before : UiState} {ui : Ui} {event : InputEvent} {c : Char}

theorem Listing.digit (h : Listing before ui.state) (hview : processViewActive before = true)
    (hc : c.isDigit = true) (hkey : event.key = key c) (frame : Frame) (env : InputEnv) :
    (processInput ui frame event env).state = ui.state.applyPidSearch env.now frame.rows c := by
  obtain ⟨hhelp, hsetup, hprocess, hworkload, hprompt⟩ := openCount_eq_zero.mp h.closed
  obtain ⟨hlow, hhigh⟩ := toNat_of_isDigit hc
  have hactive : processViewActive ui.state = true := by
    have hparts : processViewActive ui.state.listing = processViewActive before.listing := by
      rw [h.listing]
    exact hparts.trans hview
  have hchar : Char.ofNat (key c % 256).toNat = c := by
    unfold key
    rw [Int.emod_eq_of_lt (by omega) (by omega), Int.toNat_natCast, Char.ofNat_toNat]
  rw [processInput_key ui frame env hkey (by unfold key keyMouse; omega) (by unfold key err; omega)]
  unfold handleInput runCommand
  rw [hhelp, hsetup, hprocess, hworkload, if_neg (not_not.mpr hprompt), command_digit hc]
  show otherKey env ui.state frame.rows (key c) = _
  unfold otherKey
  dsimp only
  rw [hchar, hactive, hc]
  rfl

theorem Listing.typed (h : Listing before ui.state) (now : ℕ) (rows : List ProcessRow) :
    Listing before (ui.state.applyPidSearch now rows c) := by
  have hkept : (ui.state.applyPidSearch now rows c).openCount = ui.state.openCount ∧
      (ui.state.applyPidSearch now rows c).listing = ui.state.listing := by
    unfold UiState.applyPidSearch
    dsimp only
    generalize (if now > ui.state.pidSearchDeadline then [] else ui.state.pidSearch) ++ [c] = number
    split
    · exact ⟨rfl, rfl⟩
    · split <;> exact ⟨rfl, rfl⟩
  exact ⟨hkept.1.trans h.closed, hkept.2.trans h.listing⟩

end Keys

/-! ## Runs -/

/-- When the next digit has to come. -/
def nextDigit (start : ℕ → Prop) (typed : List (Char × ℕ)) : ℕ → Prop :=
  match typed.getLast? with
  | none => start
  | some press => (· ≤ press.2 + 1500)

theorem nextDigit_cons (start : ℕ → Prop) (press : Char × ℕ) (typed : List (Char × ℕ)) :
    nextDigit start (press :: typed) = nextDigit (· ≤ press.2 + 1500) typed := by
  unfold nextDigit
  rw [List.getLast?_cons]
  cases typed.getLast? <;> rfl

/-- A digit that comes in time goes on with the number of these. -/
def Numbered (start : ℕ → Prop) (digits : Text) (state : UiState) : Prop :=
  ∀ now, start now → state.pidTyped now = pidNumber digits

section Runs
variable {σ : StdSort} {before : UiState} (hview : processViewActive before = true)
include hview

/-- What is typed in one go, with frames in between, makes a number. -/
theorem run_digits {moves : List Move} {typed : List (Char × ℕ)} {start : ℕ → Prop} {digits : Text}
    {ui ui' : Ui} (hpresses : presses moves = digitPresses typed) (htimely : Timely start typed)
    (h : Listing before ui.state) (hnumber : Numbered start digits ui.state)
    (hrun : Machine.run (step σ) moves ui = some ui') :
    Listing before ui'.state ∧
      Numbered (nextDigit start typed) (digits ++ typed.map Prod.fst) ui'.state := by
  induction moves generalizing typed start digits ui with
  | nil =>
    cases hrun
    cases typed with
    | nil =>
      rw [List.map_nil, List.append_nil]
      exact ⟨h, hnumber⟩
    | cons press typed => cases hpresses
  | cons move moves ih =>
    obtain ⟨mid, hstep, hrest⟩ := Machine.run_cons hrun
    cases move with
    | frame snapshot rows cols now =>
      obtain ⟨-, rfl⟩ := step_frame_iff.mp hstep
      have hframe := drawFrame_unframed σ ui snapshot rows cols now
      have hclosed : (drawFrame σ ui snapshot rows cols now).state.openCount = 0 :=
        buildFrame_closed σ _ snapshot _ now ui.state h.closed
      generalize drawFrame σ ui snapshot rows cols now = drawn at *
      refine ih hpresses htimely ⟨hclosed, ?_⟩ ?_ hrest
      · have hlisting := congrArg UiState.listing hframe
        exact hlisting.trans h.listing
      · intro later hlater
        have hpid := congrArg (fun state => UiState.pidTyped state later) hframe
        exact hpid.trans (hnumber later hlater)
    | input event env =>
      obtain ⟨frame, -, -, rfl⟩ := step_input_iff.mp hstep
      rw [presses_input] at hpresses
      by_cases hkey : event.key = err
      · rw [if_pos hkey] at hpresses
        have hsame : (ui.afterInput (processInput ui frame event env)).state = ui.state :=
          processInput_err hkey frame env
        exact ih hpresses htimely (hsame ▸ h) (hsame ▸ hnumber) hrest
      · rw [if_neg hkey] at hpresses
        cases typed with
        | nil => cases hpresses
        | cons press typed =>
          obtain ⟨hfirst, hothers⟩ := List.cons.inj hpresses
          obtain ⟨hdigit, hnow⟩ := Prod.mk.inj hfirst
          obtain ⟨hc, hstart, hlater⟩ := htimely
          have htyped : (ui.afterInput (processInput ui frame event env)).state =
              ui.state.applyPidSearch press.2 frame.rows press.1 := by
            rw [← hnow]
            exact h.digit hview hc hdigit frame env
          have happended : Numbered (· ≤ press.2 + 1500) (digits ++ [press.1])
              (ui.state.applyPidSearch press.2 frame.rows press.1) := fun later hle =>
            applyPidSearch_typed (hnumber press.2 hstart) frame.rows press.1 hle
          have hlast := ih hothers hlater (htyped ▸ h.typed press.2 frame.rows) (htyped ▸ happended)
            hrest
          rw [List.append_assoc] at hlast
          rw [nextDigit_cons, List.map_cons]
          exact hlast

end Runs

theorem Timely.append {start : ℕ → Prop} {typed more : List (Char × ℕ)}
    (h : Timely start (typed ++ more)) : Timely start typed ∧ Timely (nextDigit start typed) more := by
  induction typed generalizing start with
  | nil => exact ⟨trivial, h⟩
  | cons press typed ih =>
    obtain ⟨hc, hstart, hrest⟩ := h
    rw [nextDigit_cons]
    exact ⟨⟨hc, hstart, (ih hrest).1⟩, (ih hrest).2⟩

theorem Timely.isDigit {start : ℕ → Prop} {typed : List (Char × ℕ)} (h : Timely start typed) :
    ∀ c ∈ typed.map Prod.fst, c.isDigit = true := by
  induction typed generalizing start with
  | nil => exact nofun
  | cons press typed ih =>
    obtain ⟨hc, -, hrest⟩ := h
    intro c hmem
    rcases List.mem_cons.mp hmem with rfl | hmem
    · exact hc
    · exact ih hrest c hmem

/-- Nothing is left of an earlier number at this time. -/
def UiState.PidBlank (state : UiState) (now : ℕ) : Prop := state.pidTyped now = []

section Last
variable {σ : StdSort} {ui mid ui' : Ui} {moves : List Move} {typed : List (Char × ℕ)} {c : Char}
  {event : InputEvent} {env : InputEnv} (hclosed : ui.state.openCount = 0)
  (hview : processViewActive ui.state = true) (hpresses : presses moves = digitPresses typed)
  (hkey : event.key = key c)
  (htimely : Timely ui.state.PidBlank (typed ++ [(c, env.now)]))
  (hrun : Machine.run (step σ) moves ui = some mid)
  (hlast : step σ (.input event env) mid = some ui')
include hclosed hview hpresses hkey htimely hrun hlast

theorem last_digit : ∃ frame, mid.frame = some frame ∧
    ui'.state = mid.state.applyPidSearch env.now frame.rows c ∧
    mid.state.pidTyped env.now = pidNumber (typed.map Prod.fst) := by
  obtain ⟨hearlier, hc, hnow, -⟩ := htimely.append
  have hstart : Numbered ui.state.PidBlank [] ui.state := fun _ hblank => hblank
  obtain ⟨hlisting, hnumber⟩ := run_digits hview hpresses hearlier ⟨hclosed, rfl⟩ hstart hrun
  obtain ⟨frame, hframe, -, rfl⟩ := step_input_iff.mp hlast
  exact ⟨frame, hframe, hlisting.digit hview hc hkey frame env, hnumber env.now hnow⟩

/-- Digits typed in one go, with frames of any listings in between, make a number of eight digits at
most, and the last of them selects the first row of the table on the screen whose pid begins with the
number; where there is none, the selection stays. -/
theorem pid_entry : ∃ frame, mid.frame = some frame ∧
    ui'.state.pidSearch = pidNumber (typed.map Prod.fst ++ [c]) ∧
    ui'.state.selectedPid =
      ((pidRow frame.rows (pidNumber (typed.map Prod.fst ++ [c]))).map (·.process.pid)).or
        mid.state.selectedPid := by
  obtain ⟨frame, hframe, hstate, htyped⟩ :=
    last_digit hclosed hview hpresses hkey htimely hrun hlast
  rw [hstate]
  exact ⟨frame, hframe, applyPidSearch_number htyped frame.rows c,
    applyPidSearch_selected htyped frame.rows c⟩

end Last

/-- Inputs leave the frame on the screen. -/
theorem run_inputs {σ : StdSort} {moves : List Move} {ui ui' : Ui}
    (hmoves : ∀ move ∈ moves, ∃ event env, move = Move.input event env)
    (hrun : Machine.run (step σ) moves ui = some ui') : ui'.frame = ui.frame := by
  induction moves generalizing ui with
  | nil =>
    cases hrun
    rfl
  | cons move moves ih =>
    obtain ⟨mid, hstep, hrest⟩ := Machine.run_cons hrun
    obtain ⟨event, env, rfl⟩ := hmoves move List.mem_cons_self
    obtain ⟨frame, -, -, rfl⟩ := step_input_iff.mp hstep
    have hsame := ih (fun move hmem => hmoves move (List.mem_cons_of_mem _ hmem)) hrest
    exact hsame

/-- In the order of the pids, typing the pid of a process that the last frame lists, in one go behind a
blank number, selects that process. -/
theorem typed_pid_selected (σ : StdSort) {ui mid ui' : Ui} (hclosed : ui.state.openCount = 0)
    (hview : processViewActive ui.state = true) (hsort : ui.state.sort = .pid)
    (hdirection : 0 < ui.state.sortDirection)
    (htree : ui.state.viewMode ≠ .gpuActive → ui.state.treeMode = false)
    {moves inputs : List Move} {snapshot : SystemSnapshot} {rows cols : ℤ} {now : ℕ}
    (hinputs : ∀ move ∈ inputs, ∃ event env, move = .input event env)
    (hpids : (snapshot.processes.map (·.pid)).Nodup) {typed : List (Char × ℕ)} {c : Char}
    {event : InputEvent} {env : InputEnv}
    (hpresses : presses (moves ++ .frame snapshot rows cols now :: inputs) = digitPresses typed)
    (hkey : event.key = key c)
    (htimely : Timely ui.state.PidBlank (typed ++ [(c, env.now)])) {pid : ℤ}
    (hlisted : pid ∈ rowPids (frameRows σ snapshot ui.state))
    (hpid : typed.map Prod.fst ++ [c] = intText pid) (hlength : (intText pid).length ≤ 8)
    (hrun : Machine.run (step σ) (moves ++ .frame snapshot rows cols now :: inputs) ui = some mid)
    (hlast : step σ (.input event env) mid = some ui') : ui'.state.selectedPid = some pid := by
  obtain ⟨frame, hframe, hstate, htyped⟩ :=
    last_digit hclosed hview hpresses hkey htimely hrun hlast
  have hprofile : ui.state.viewProfile = .beta := by
    unfold processViewActive at hview
    exact of_decide_eq_true (Bool.and_eq_true_iff.mp hview).1
  -- the table on the screen
  have hrows : frame.rows = frameRows σ snapshot ui.state := by
    rw [Machine.run_append] at hrun
    obtain ⟨early, hearly, hrest⟩ := Option.bind_eq_some_iff.mp hrun
    obtain ⟨drawn, hdraw, hinput⟩ := Machine.run_cons hrest
    obtain ⟨-, rfl⟩ := step_frame_iff.mp hdraw
    have hshown := (run_inputs hinputs hinput).symm.trans hframe
    obtain ⟨typed₁, typed₂, rfl, hpresses₁⟩ : ∃ typed₁ typed₂, typed = typed₁ ++ typed₂ ∧
        presses moves = digitPresses typed₁ := by
      unfold presses at hpresses
      rw [List.filterMap_append] at hpresses
      obtain ⟨typed₁, typed₂, rfl, h₁, -⟩ := List.map_eq_append_iff.mp hpresses.symm
      exact ⟨typed₁, typed₂, rfl, h₁.symm⟩
    rw [List.append_assoc] at htimely
    have hstart : Numbered ui.state.PidBlank [] ui.state := fun _ hblank => hblank
    have hlisting :=
      (run_digits hview hpresses₁ htimely.append.1 ⟨hclosed, rfl⟩ hstart hearly).1.listing
    have hprofile' := (viewProfile_of_listing hlisting).trans hprofile
    rw [← frameRows_listing σ snapshot hlisting, ← Option.some.inj hshown]
    exact congrArg Frame.rows (buildFrame_beta σ _ snapshot _ now hprofile')
  have hdigits := htimely.isDigit
  rw [List.map_append, List.map_singleton, hpid] at hdigits
  have hnonneg : 0 ≤ pid := by
    by_contra hneg
    have hminus := hdigits '-' (by rw [intText, if_pos (not_le.mp hneg)]; exact List.mem_cons_self)
    cases hminus
  have hnumber : pidNumber (typed.map Prod.fst ++ [c]) = intText pid := by
    rw [hpid]
    unfold pidNumber
    rw [Nat.div_eq_of_lt (by omega), Nat.zero_mul, List.drop_zero]
  obtain ⟨row, hrow, rfl⟩ := List.mem_map.mp hlisted
  have hfirst := find?_pid (frameRows_ascending σ hpids hsort hdirection htree hprofile) hrow hnonneg
  rw [hstate, applyPidSearch_selected htyped, hnumber, hrows]
  unfold pidRow
  rw [if_neg (intText_ne_nil _), hfirst]
  rfl

/-- The table is brought into the order of the pids. -/
def pidsSorted : List Move := .frame tourSnapshot 40 120 0 :: pressThenFrame [key 'n']

/-- From there two digits are typed, with a frame between them. -/
theorem thirty_typed :
    ∃ ui mid ui', Machine.run (step .insertion) pidsSorted
        (start (runConfig none { viewProfile := some .beta })) = some ui ∧
      Machine.run (step .insertion) (pressThenFrame [key '3']) ui = some mid ∧
      step .insertion (.input { key := key '0' } {}) mid = some ui' ∧
      (ui.state.openCount = 0 ∧ processViewActive ui.state = true) ∧
      (ui.state.sort = .pid ∧ ui.state.sortDirection = 1 ∧ ui.state.treeMode = false) ∧
      ui.state.PidBlank 0 ∧ rowPids (frameRows .insertion tourSnapshot ui.state) = [10, 20, 30] := by
  have hrun : (Machine.run (step .insertion) pidsSorted
      (start (runConfig none { viewProfile := some .beta }))).any (fun ui =>
        ui.state.openCount = 0 && processViewActive ui.state && ui.state.sort = .pid &&
          ui.state.sortDirection = 1 && ui.state.treeMode = false && ui.state.pidTyped 0 = [] &&
          rowPids (frameRows .insertion tourSnapshot ui.state) = [10, 20, 30] &&
          ((Machine.run (step .insertion) (pressThenFrame [key '3']) ui).bind
            (step .insertion (.input { key := key '0' } {}))).isSome) = true := by decide
  obtain ⟨ui, hui, hstate⟩ := Option.any_eq_true _ _ |>.mp hrun
  simp only [Bool.and_eq_true, decide_eq_true_eq, and_assoc] at hstate
  obtain ⟨hclosed, hview, hsort, hdirection, htree, hblank, hrows, hsome⟩ := hstate
  obtain ⟨ui', hui'⟩ := Option.isSome_iff_exists.mp hsome
  obtain ⟨mid, hmid, hlast⟩ := Option.bind_eq_some_iff.mp hui'
  exact ⟨ui, mid, ui', hui, hmid, hlast, ⟨hclosed, hview⟩, ⟨hsort, hdirection, htree⟩, hblank, hrows⟩

theorem thirty_presses : presses (pressThenFrame [key '3']) = digitPresses [('3', 0)] := by decide

theorem thirty_timely {state : UiState} (h : state.PidBlank 0) :
    Timely state.PidBlank ([('3', 0)] ++ [('0', 0)]) :=
  ⟨by decide, h, by decide, Nat.zero_le _, trivial⟩

theorem pid_entry_thirty :
    ∃ mid ui' frame, step .insertion (.input { key := key '0' } {}) mid = some ui' ∧
      mid.frame = some frame ∧ ui'.state.pidSearch = ['3', '0'] ∧
      ui'.state.selectedPid =
        ((pidRow frame.rows ['3', '0']).map (·.process.pid)).or mid.state.selectedPid := by
  obtain ⟨ui, mid, ui', -, hmid, hlast, ⟨hclosed, hview⟩, -, hblank, -⟩ := thirty_typed
  have hkey : ({ key := key '0' } : InputEvent).key = key '0' := rfl
  obtain ⟨frame, hframe, hnumber, hselected⟩ :=
    pid_entry hclosed hview thirty_presses hkey (thirty_timely hblank) hmid hlast
  have hdigits : pidNumber (([('3', 0)] : List (Char × ℕ)).map Prod.fst ++ ['0']) = ['3', '0'] := by
    decide
  rw [hdigits] at hnumber hselected
  exact ⟨mid, ui', frame, hlast, hframe, hnumber, hselected⟩

theorem typed_pid_selected_thirty :
    ∃ mid ui', step .insertion (.input { key := key '0' } {}) mid = some ui' ∧
      ui'.state.selectedPid = some 30 := by
  obtain ⟨ui, mid, ui', -, hmid, hlast, ⟨hclosed, hview⟩, ⟨hsort, hdirection, htree⟩, hblank, hrows⟩ :=
    thirty_typed
  have hpresses := thirty_presses
  unfold pressThenFrame at hmid hpresses
  have hkey : ({ key := key '0' } : InputEvent).key = key '0' := rfl
  have hinputs : ∀ move ∈ ([] : List Move), ∃ event env, move = .input event env :=
    fun _ hmove => absurd hmove List.not_mem_nil
  have hlisted : 30 ∈ rowPids (frameRows .insertion tourSnapshot ui.state) := by
    rw [hrows]
    decide
  exact ⟨mid, ui', hlast, typed_pid_selected .insertion hclosed hview hsort
    (by rw [hdirection]; decide) (fun _ => htree) hinputs (by decide) hpresses hkey
    (thirty_timely hblank) hlisted (by decide) (by decide) hmid hlast⟩

end Mtop
