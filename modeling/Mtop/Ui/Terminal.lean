import Mtop.Library.Fed
import Mtop.Ui.LoopSteps
import Mtop.Ui.MouseReport

/-! From the bytes of the terminal to the moves of the main loop: whatever a user types and clicks, with
a pause behind each Escape, the interface that reads the bytes does what the interface does that is
handed the events. -/
namespace Mtop
open Cxx
set_option autoImplicit false

/-! ## What a terminal sends -/

/-- A mouse report that fits the parser. -/
structure MouseReport where
  button : ℤ
  x : ℤ
  y : ℤ
  letter : Char
  button_range : 0 ≤ button ∧ button < 2 ^ 31
  x_range : 1 ≤ x ∧ x < 2 ^ 31
  y_range : 1 ≤ y ∧ y < 2 ^ 31
  length_le : (reportText button x y).length ≤ 31
  isFinal : letter = 'M' ∨ letter = 'm'

inductive TerminalInput where
  /-- no data when the terminal is asked -/
  | idle
  /-- a byte, or a key that curses has decoded itself -/
  | typed (ch : ℤ) (hdata : ch ≠ err) (hplain : ch ≠ keyEscape)
  /-- the Escape key, with a pause behind it -/
  | escape
  | mouse (report : MouseReport)
  /-- `F1` to `F10` as `ESC [ number ~` -/
  | function (n : Fin 10)
  /-- `F1` to `F4` as `ESC O letter` -/
  | letterFunction (n : Fin 4)
  | backTab

/-- The numbers of `F1` to `F10`. -/
def functionCode (n : Fin 10) : Text :=
  [str "11", str "12", str "13", str "14", str "15", str "17", str "18", str "19", str "20",
    str "21"].getD n []

def functionLetter (n : Fin 4) : Char := ['P', 'Q', 'R', 'S'].get n

namespace TerminalInput

/-- The keys that `getch` answers. -/
def keys : TerminalInput → List ℤ
  | .idle => [err]
  | .typed ch _ _ => [ch]
  | .escape => [keyEscape, err]
  | .mouse report => reportKeys report.button report.x report.y report.letter
  | .function n => keyEscape :: keysOf ('[' :: (functionCode n ++ ['~']))
  | .letterFunction n => keyEscape :: keysOf ['O', functionLetter n]
  | .backTab => keyEscape :: keysOf ['[', 'Z']

/-- The event that it stands for. -/
def event : TerminalInput → ParsedInput
  | .idle => {}
  | .typed ch _ _ => { key := ch }
  | .escape => { key := keyEscape }
  | .mouse report =>
    { key := keyMouse
      mouse := some ⟨report.x - 1, report.y - 1, report.letter = 'm' && report.button % 4 = 0⟩
      parsedEscape := true }
  | .function n => { key := keyF (n + 1), parsedEscape := true }
  | .letterFunction n => { key := keyF (n + 1), parsedEscape := true }
  | .backTab => { key := keyBTab, parsedEscape := true }

end TerminalInput

/-! ## Decoding one input -/

/-- The number of a function key is read up to its `~`. -/
theorem readInputEvent_number {digit : Char} {number : Text} (hdigit : digit.isDigit = true)
    (hnumber : ∀ c ∈ number, c.isDigit = true) (hlength : number.length < 8) (rest : List ℤ) :
    readInputEvent (keyEscape :: keysOf ('[' :: ((digit :: number) ++ ['~'])) ++ rest) =
      ({ key := functionKey ((digit :: number) ++ ['~']), parsedEscape := true }, rest) := by
  have hkeys : keyEscape :: keysOf ('[' :: ((digit :: number) ++ ['~'])) ++ rest =
      keyEscape :: key '[' :: key digit :: (keysOf number ++ key '~' :: rest) := by
    simp [keysOf]
  have hother : ∀ c : Char, c.isDigit = false → key digit ≠ key c := by
    intro c hc h
    rw [key_injective h, hc] at hdigit
    cases hdigit
  have hread : readUntil endsSequence 8 (keysOf number ++ key '~' :: rest) =
      (keysOf number, some (key '~'), rest) := by
    refine readUntil_final (by rwa [keysOf, List.length_map]) ?_ ?_ (key_ne_err _) rfl
    · intro hmem
      obtain ⟨c, -, hc⟩ := List.mem_map.mp hmem
      exact key_ne_err c hc
    · intro next hnext
      obtain ⟨c, hc, rfl⟩ := List.mem_map.mp hnext
      exact endsSequence_digit (hnumber c hc)
  have hbyte : ∀ c : Char, c.isDigit = true → byteOf (key c) = c := by
    intro c hc
    have hrange := toNat_of_isDigit hc
    exact byteOf_key (by omega)
  have htext : (key digit :: keysOf number ++ (some (key '~')).toList).map byteOf =
      (digit :: number) ++ ['~'] := by
    have htail : (keysOf number).map byteOf = number := by
      rw [keysOf, List.map_map]
      exact (List.map_congr_left fun c hc => hbyte c (hnumber c hc)).trans (List.map_id _)
    rw [List.map_append, List.map_cons, htail, hbyte digit hdigit]
    rfl
  rw [hkeys, readInputEvent_sequence (key_ne_err _) (key_ne_err _),
    if_neg fun h => hother '<' rfl h.2]
  unfold parseDefinedEscapeSequence
  rw [if_neg (by decide), if_pos rfl, if_neg (hother 'Z' rfl), hbyte digit hdigit, if_pos hdigit,
    hread]
  dsimp only
  rw [htext]

theorem functionCode_split (n : Fin 10) : ∃ digit number, functionCode n = digit :: number ∧
    digit.isDigit = true ∧ (∀ c ∈ number, c.isDigit = true) ∧ number.length < 8 ∧
      functionKey (functionCode n ++ ['~']) = keyF (n + 1) := by
  have hne : ∀ n, functionCode n ≠ [] := by decide +kernel
  have hdigits : ∀ n, (functionCode n).all Char.isDigit = true := by decide +kernel
  have hlength : ∀ n, (functionCode n).length ≤ 8 := by decide +kernel
  have hkey : ∀ n, functionKey (functionCode n ++ ['~']) = keyF (n + 1) := by decide +kernel
  obtain ⟨digit, number, hcode⟩ := List.exists_cons_of_ne_nil (hne n)
  have hall := List.all_eq_true.mp (hdigits n)
  have hfits := hlength n
  rw [hcode] at hall hfits
  exact ⟨digit, number, hcode, hall digit List.mem_cons_self,
    fun c hc => hall c (List.mem_cons_of_mem _ hc), hfits, hkey n⟩

theorem parse_letterFunction (n : Fin 4) (rest : List ℤ) :
    parseDefinedEscapeSequence (key 'O') (key (functionLetter n)) rest = (keyF (n + 1), rest) := by
  match n with
  | 0 => rfl
  | 1 => rfl
  | 2 => rfl
  | 3 => rfl

theorem readInputEvent_mouse (report : MouseReport) (rest : List ℤ) :
    readInputEvent ((TerminalInput.mouse report).keys ++ rest) =
      ((TerminalInput.mouse report).event, rest) := by
  obtain ⟨button, x, y, letter, hbutton, hx, hy, hlength, hletter⟩ := report
  have hx0 : 0 ≤ x := zero_le_one.trans hx.1
  have hy0 : 0 ≤ y := zero_le_one.trans hy.1
  have hkeys : reportKeys button x y letter ++ rest = keyEscape :: key '[' :: key '<' ::
      (keysOf (reportText button x y) ++ key letter :: rest) := by
    simp [reportKeys, keysOf]
  have hrelease : key letter = key 'm' ↔ letter = 'm' := by
    rcases hletter with rfl | rfl <;> decide
  show readInputEvent (reportKeys button x y letter ++ rest) = _
  rw [hkeys, readInputEvent_sequence (key_ne_err _) (key_ne_err _), if_pos ⟨rfl, rfl⟩,
    readUntil_reportText hbutton.1 hx0 hy0 hlength hletter]
  dsimp only
  rw [map_byteOf_reportText hbutton.1 hx0 hy0]
  unfold parseReport
  rw [scanReport_reportText hbutton.1 hx0 hy0 hbutton.2 hx.2 hy.2]
  simp only [hrelease, max_eq_right (Int.sub_nonneg.mpr hx.1), max_eq_right (Int.sub_nonneg.mpr hy.1)]
  rfl

/-- Each input is decoded, and nothing behind it is read. -/
theorem readInputEvent_keys (input : TerminalInput) (rest : List ℤ) :
    readInputEvent (input.keys ++ rest) = (input.event, rest) := by
  cases input with
  | idle => exact readInputEvent_typed (by decide) rest
  | typed ch hdata hplain => exact readInputEvent_typed hplain rest
  | escape => exact readInputEvent_lone rfl
  | mouse report => exact readInputEvent_mouse report rest
  | function n =>
    obtain ⟨digit, number, hcode, hdigit, hnumber, hlength, hkey⟩ := functionCode_split n
    rw [hcode] at hkey
    have hread := readInputEvent_number hdigit hnumber hlength rest
    rw [hkey] at hread
    rw [TerminalInput.keys, hcode]
    exact hread
  | letterFunction n =>
    have hkeys : (TerminalInput.letterFunction n).keys ++ rest =
        keyEscape :: key 'O' :: key (functionLetter n) :: rest := rfl
    rw [hkeys, readInputEvent_sequence (key_ne_err _) (key_ne_err _), if_neg fun h => absurd h.1 (by decide),
      parse_letterFunction]
    rfl
  | backTab =>
    rfl

theorem readInputEvent_nil : readInputEvent [] = ({}, []) := rfl

/-- The bytes of a session are the events of the session. -/
theorem events_keys (inputs : List TerminalInput) :
    events (inputs.flatMap TerminalInput.keys) = inputs.map TerminalInput.event := by
  induction inputs with
  | nil => rfl
  | cons input inputs ih =>
    have hread := readInputEvent_keys input (inputs.flatMap TerminalInput.keys)
    rw [List.flatMap_cons, List.map_cons]
    cases hkeys : input.keys ++ inputs.flatMap TerminalInput.keys with
    | nil => cases input <;> cases hkeys
    | cons first keys =>
      rw [hkeys] at hread
      rw [events_cons, hread, ih]

/-! ## The main loop on bytes -/

/-- A mouse key of curses is completed by `getmouse`. -/
def inputOf (getmouse : Option MouseEvent) (parsed : ParsedInput) : InputEvent :=
  if parsed.key = keyMouse ∧ parsed.mouse = none then { key := keyMouse, mouse := getmouse }
  else parsed.toInputEvent

inductive TerminalMove where
  | frame (snapshot : SystemSnapshot) (rows cols : ℤ) (now : ℕ)
  /-- one turn of the input loop, and what `getmouse` would answer in it -/
  | poll (getmouse : Option MouseEvent) (env : InputEnv)

def TerminalMove.cue : TerminalMove → Machine.Cue ParsedInput Move
  | .frame snapshot rows cols now => .ready (.frame snapshot rows cols now)
  | .poll getmouse env => .read fun parsed => .input (inputOf getmouse parsed) env

def TerminalMove.polls : TerminalMove → Bool
  | .frame .. => false
  | .poll .. => true

/-- The main loop on the bytes that are still to come. -/
def terminalRun (σ : StdSort) (moves : List TerminalMove) (ui : Ui × List ℤ) :
    Option (Ui × List ℤ) :=
  Machine.run (Machine.fedStep (step σ) readInputEvent) (moves.map TerminalMove.cue) ui

/-- The calls on other processes on the way. -/
def terminalActions (σ : StdSort) (moves : List TerminalMove) (ui : Ui × List ℤ) : List Action :=
  Machine.trace (Machine.fedStep (step σ) readInputEvent) (Machine.fedEmit readInputEvent actions)
    (moves.map TerminalMove.cue) ui

/-- The moves that the inputs come to, one for each turn, and turns without data after the last. -/
def sessionMoves (moves : List TerminalMove) (inputs : List TerminalInput) : List Move :=
  Machine.movesOf {} (moves.map TerminalMove.cue) (inputs.map TerminalInput.event)

theorem countP_reads (moves : List TerminalMove) :
    (moves.map TerminalMove.cue).countP Machine.Cue.reads = moves.countP TerminalMove.polls := by
  rw [List.countP_map]
  refine List.countP_congr fun move _ => ?_
  cases move <;> rfl

/-- Whatever session of these inputs is typed and clicked (behind each Escape a pause, the mouse reports
no longer than the parser reads), and however the turns and the frames follow each other, the interface
that parses the bytes goes through the states of the one that is handed the inputs, makes the same calls
on processes, and has read exactly the bytes of the inputs it has handled. -/
theorem terminal_session (σ : StdSort) (config : AppConfig) (moves : List TerminalMove)
    (inputs : List TerminalInput) :
    terminalRun σ moves (start config, inputs.flatMap TerminalInput.keys) =
        (Machine.run (step σ) (sessionMoves moves inputs) (start config)).map
          (·, (inputs.drop (moves.countP TerminalMove.polls)).flatMap TerminalInput.keys) ∧
      terminalActions σ moves (start config, inputs.flatMap TerminalInput.keys) =
        Machine.trace (step σ) actions (sessionMoves moves inputs) (start config) := by
  constructor
  · rw [← countP_reads]
    exact Machine.run_fed readInputEvent_keys readInputEvent_nil _ inputs _
  · exact Machine.trace_fed actions readInputEvent_keys readInputEvent_nil _ inputs _

end Mtop
