import Mtop.Ui.MainLoop

/-! Reading one input event off the keys of the terminal (`input_parser.cpp`). What `getch` answers is
a list of keys, with `ERR` where no data is there yet; after its end there is never any. -/
namespace Mtop
open Cxx
set_option autoImplicit false

/-- An event, and whether an escape sequence was parsed for it. -/
structure ParsedInput extends InputEvent where
  parsedEscape : Bool := false

/-! ## Keys -/

def readKey : List ℤ → ℤ × List ℤ
  | [] => (err, [])
  | next :: keys => (next, keys)

/-- `static_cast<char>` of a key. -/
def byteOf (key : ℤ) : Char := Char.ofNat (key % 256).toNat

/-- Both loops over a sequence: they end after `guard` keys, at no data, or at a final key. -/
def readUntil (final : ℤ → Bool) : ℕ → List ℤ → List ℤ × Option ℤ × List ℤ
  | 0, keys => ([], none, keys)
  | guard + 1, keys =>
    let (next, keys) := readKey keys
    if next = err then ([], none, keys)
    else if final next then ([], some next, keys)
    else
      let (read, last, keys) := readUntil final guard keys
      (next :: read, last, keys)

/-! ## Function keys -/

def endsSequence (next : ℤ) : Bool := next = key '~' || (byteOf next).isAlpha

def functionKey (sequence : Text) : ℤ :=
  if sequence = str "11~" then keyF 1
  else if sequence = str "12~" then keyF 2
  else if sequence = str "13~" then keyF 3
  else if sequence = str "14~" then keyF 4
  else if sequence = str "15~" then keyF 5
  else if sequence = str "17~" then keyF 6
  else if sequence = str "18~" then keyF 7
  else if sequence = str "19~" then keyF 8
  else if sequence = str "20~" then keyF 9
  else if sequence = str "21~" then keyF 10
  else keyEscape

def parseDefinedEscapeSequence (second third : ℤ) (keys : List ℤ) : ℤ × List ℤ :=
  if second = key 'O' then
    if third = key 'P' then (keyF 1, keys)
    else if third = key 'Q' then (keyF 2, keys)
    else if third = key 'R' then (keyF 3, keys)
    else if third = key 'S' then (keyF 4, keys)
    else (keyEscape, keys)
  else if second = key '[' then
    if third = key 'Z' then (keyBTab, keys)
    else if (byteOf third).isDigit then
      let (read, last, keys) := readUntil endsSequence 8 keys
      (functionKey ((third :: read ++ last.toList).map byteOf), keys)
    else (keyEscape, keys)
  else (keyEscape, keys)

/-! ## Mouse reports -/

def endsReport (next : ℤ) : Bool := next = key 'M' || next = key 'm'

/-- `%d` of `sscanf`. -/
def scanInt (text : Text) : Option (ℤ × Text) := (strtolEnd text).map fun rest => (atoi text, rest)

def scanSemicolon : Text → Option Text
  | ';' :: rest => some rest
  | _ => none

/-- `"%d;%d;%d"`, if all three are there. -/
def scanReport (payload : Text) : Option (ℤ × ℤ × ℤ) := do
  let (button, rest) ← scanInt (payload.takeWhile (· ≠ '\x00'))
  let (x, rest) ← scanInt (← scanSemicolon rest)
  let (y, _) ← scanInt (← scanSemicolon rest)
  return (button, x, y)

/-- Only the release of the first button is marked as `BUTTON1_RELEASED`. -/
def parseReport (payload : Text) (last : Option ℤ) : ParsedInput :=
  match last, scanReport payload with
  | some last, some (button, x, y) =>
    { key := keyMouse
      mouse := some ⟨max 0 (x - 1), max 0 (y - 1), last = key 'm' && button % 4 = 0⟩
      parsedEscape := true }
  | _, _ => { key := err, parsedEscape := true }

/-! ## Events -/

/-- The event and the keys that are left; a lone second key is pushed back. -/
def readInputEvent (keys : List ℤ) : ParsedInput × List ℤ :=
  let (first, keys) := readKey keys
  if first ≠ keyEscape then ({ key := first }, keys)
  else
    let (second, keys) := readKey keys
    if second = err then ({ key := keyEscape }, keys)
    else
      let (third, keys) := readKey keys
      if third = err then ({ key := keyEscape }, second :: keys)
      else if second = key '[' ∧ third = key '<' then
        let (payload, last, keys) := readUntil endsReport 32 keys
        (parseReport (payload.map byteOf) last, keys)
      else
        let (parsed, keys) := parseDefinedEscapeSequence second third keys
        ({ key := parsed, parsedEscape := true }, keys)

/-- The events of at most this many calls, until no key is left. -/
def readEvents : ℕ → List ℤ → List ParsedInput
  | 0, _ => []
  | calls + 1, keys =>
    if keys = [] then []
    else (readInputEvent keys).1 :: readEvents calls (readInputEvent keys).2

/-- The events of repeated calls, until no key is left. -/
def events (keys : List ℤ) : List ParsedInput := readEvents keys.length keys

/-! ## What a call leaves -/

variable {final : ℤ → Bool}

theorem readUntil_suffix (guard : ℕ) (keys : List ℤ) :
    (readUntil final guard keys).2.2 <:+ keys := by
  induction guard generalizing keys with
  | zero => exact List.suffix_refl keys
  | succ guard ih =>
    cases keys with
    | nil => exact List.suffix_refl []
    | cons next keys =>
      unfold readUntil readKey
      dsimp only
      split
      · exact List.suffix_cons next keys
      · split
        · exact List.suffix_cons next keys
        · exact (ih keys).trans (List.suffix_cons next keys)

/-- What follows the first missing data is left, unless a final key came before. -/
theorem readUntil_leaves (guard : ℕ) {before after : List ℤ} (herr : err ∉ before)
    (hfinal : ∀ next ∈ before, final next = false) :
    after <:+ (readUntil final guard (before ++ err :: after)).2.2 := by
  induction guard generalizing before with
  | zero =>
    exact (List.suffix_cons err after).trans (List.suffix_append before (err :: after))
  | succ guard ih =>
    cases before with
    | nil => exact List.suffix_refl after
    | cons next before =>
      rw [List.mem_cons, not_or] at herr
      have hnext := hfinal next List.mem_cons_self
      unfold readUntil readKey
      dsimp only [List.cons_append]
      rw [if_neg (Ne.symm herr.1), hnext, if_neg Bool.false_ne_true]
      exact ih herr.2 fun other hother => hfinal other (List.mem_cons_of_mem next hother)

theorem parseDefinedEscapeSequence_suffix (second third : ℤ) (keys : List ℤ) :
    (parseDefinedEscapeSequence second third keys).2 <:+ keys := by
  unfold parseDefinedEscapeSequence
  split_ifs
  all_goals first
    | exact List.suffix_refl keys
    | exact readUntil_suffix 8 keys

theorem readInputEvent_typed {first : ℤ} (h : first ≠ keyEscape) (keys : List ℤ) :
    readInputEvent (first :: keys) = ({ key := first }, keys) := if_pos h

theorem readInputEvent_lone {keys : List ℤ} (h : (readKey keys).1 = err) :
    readInputEvent (keyEscape :: keys) = ({ key := keyEscape }, (readKey keys).2) := by
  unfold readInputEvent
  exact (if_neg (not_not.mpr rfl)).trans (if_pos h)

theorem readInputEvent_unread {second : ℤ} {keys : List ℤ} (h : second ≠ err)
    (h' : (readKey keys).1 = err) :
    readInputEvent (keyEscape :: second :: keys) =
      ({ key := keyEscape }, second :: (readKey keys).2) := by
  unfold readInputEvent
  exact (if_neg (not_not.mpr rfl)).trans ((if_neg h).trans (if_pos h'))

/-- After `ESC` and two more keys, something of the rest is left and nothing of the two. -/
theorem readInputEvent_sequence {second third : ℤ} (h : second ≠ err) (h' : third ≠ err)
    (keys : List ℤ) :
    readInputEvent (keyEscape :: second :: third :: keys) =
      if second = key '[' ∧ third = key '<' then
        (parseReport ((readUntil endsReport 32 keys).1.map byteOf)
          (readUntil endsReport 32 keys).2.1, (readUntil endsReport 32 keys).2.2)
      else
        ({ key := (parseDefinedEscapeSequence second third keys).1, parsedEscape := true },
          (parseDefinedEscapeSequence second third keys).2) := by
  unfold readInputEvent
  exact (if_neg (not_not.mpr rfl)).trans ((if_neg h).trans (if_neg h'))

theorem readInputEvent_shorter {keys : List ℤ} (h : keys ≠ []) :
    (readInputEvent keys).2.length < keys.length := by
  cases keys with
  | nil => exact absurd rfl h
  | cons first keys =>
    by_cases hfirst : first = keyEscape
    · subst hfirst
      cases keys with
      | nil => decide
      | cons second keys =>
        by_cases hsecond : second = err
        · have hdata : (readKey (second :: keys)).1 = err := hsecond
          rw [readInputEvent_lone hdata]
          exact Nat.lt_succ_of_lt (Nat.lt_succ_self _)
        · cases keys with
          | nil =>
            rw [readInputEvent_unread hsecond rfl]
            exact Nat.lt_succ_self _
          | cons third keys =>
            by_cases hthird : third = err
            · have hdata : (readKey (third :: keys)).1 = err := hthird
              rw [readInputEvent_unread hsecond hdata]
              show (second :: keys).length < (keyEscape :: second :: third :: keys).length
              simp only [List.length_cons]
              omega
            · rw [readInputEvent_sequence hsecond hthird]
              have hreport : (readUntil endsReport 32 keys).2.2.length ≤ keys.length :=
                (readUntil_suffix 32 keys).length_le
              have hdefined := (parseDefinedEscapeSequence_suffix second third keys).length_le
              split
              · exact lt_of_le_of_lt hreport (by simp only [List.length_cons]; omega)
              · exact lt_of_le_of_lt hdefined (by simp only [List.length_cons]; omega)
    · rw [readInputEvent_typed hfirst]
      exact Nat.lt_succ_self _

/-! ## Repeated calls -/

theorem readEvents_enough {calls calls' : ℕ} {keys : List ℤ} (h : keys.length ≤ calls)
    (h' : keys.length ≤ calls') : readEvents calls keys = readEvents calls' keys := by
  induction calls generalizing calls' keys with
  | zero =>
    obtain rfl := List.length_eq_zero_iff.mp (Nat.le_zero.mp h)
    cases calls' <;> rfl
  | succ calls ih =>
    cases keys with
    | nil => cases calls' <;> rfl
    | cons first keys =>
      have hshorter := readInputEvent_shorter (List.cons_ne_nil first keys)
      rw [List.length_cons] at h h' hshorter
      cases calls' with
      | zero => omega
      | succ calls' =>
        unfold readEvents
        rw [if_neg (List.cons_ne_nil first keys), if_neg (List.cons_ne_nil first keys)]
        exact congrArg _ (ih (by omega) (by omega))

/-- The calls go on with the keys that are left. -/
theorem events_cons (first : ℤ) (keys : List ℤ) :
    events (first :: keys) =
      (readInputEvent (first :: keys)).1 :: events (readInputEvent (first :: keys)).2 := by
  have hshorter := readInputEvent_shorter (List.cons_ne_nil first keys)
  rw [List.length_cons] at hshorter
  show readEvents (keys.length + 1) (first :: keys) = _
  rw [readEvents, if_neg (List.cons_ne_nil first keys)]
  exact congrArg _ (readEvents_enough (Nat.le_of_lt_succ hshorter) (le_refl _))

/-- Without `ESC` every key is an event of its own. -/
theorem events_typed {keys : List ℤ} (h : keyEscape ∉ keys) :
    events keys = keys.map fun typed => { key := typed } := by
  induction keys with
  | nil => rfl
  | cons first keys ih =>
    rw [List.mem_cons, not_or] at h
    rw [events_cons, readInputEvent_typed (Ne.symm h.1), ih h.2]
    rfl

end Mtop
