import Mtop.Ui.Terminal

/-! A pause in the terminal's stream puts the parser back in step: what comes behind two results without
data is parsed as if nothing had come before. -/
namespace Mtop
open Cxx
set_option autoImplicit false

/-! ## Streams that end in a pause -/

/-- What may be left of a stream that ends in a pause of two results. -/
inductive Paused : List ℤ → Prop
  | done : Paused []
  | last : Paused [err]
  | pushedBack (second : ℤ) : Paused [second, err]
  | ahead (noise : List ℤ) : Paused (noise ++ [err, err])

theorem Paused.tail {first : ℤ} {keys : List ℤ} (h : Paused (first :: keys)) : Paused keys := by
  generalize hstream : first :: keys = stream at h
  cases h with
  | done => cases hstream
  | last =>
    obtain ⟨-, rfl⟩ := List.cons.inj hstream
    exact .done
  | pushedBack second =>
    obtain ⟨-, rfl⟩ := List.cons.inj hstream
    exact .last
  | ahead noise =>
    cases noise with
    | nil =>
      obtain ⟨-, rfl⟩ := List.cons.inj hstream
      exact .last
    | cons next noise =>
      obtain ⟨-, rfl⟩ := List.cons.inj hstream
      exact .ahead noise

theorem Paused.getLast? {keys : List ℤ} (h : Paused keys) (hne : keys ≠ []) :
    keys.getLast? = some err := by
  cases h with
  | done => exact absurd rfl hne
  | last => rfl
  | pushedBack second => rfl
  | ahead noise => simp

theorem Paused.suffix {keys left : List ℤ} (h : Paused keys) (hleft : left <:+ keys) :
    Paused left := by
  induction keys with
  | nil =>
    rw [List.suffix_nil.mp hleft]
    exact .done
  | cons first keys ih =>
    rcases List.suffix_cons_iff.mp hleft with rfl | hleft
    · exact h
    · exact ih h.tail hleft

/-- Behind two keys there is still the whole pause. -/
theorem Paused.ends {first second : ℤ} {keys : List ℤ} (h : Paused (first :: second :: keys))
    (hsecond : second ≠ err) : ∃ noise, keys = noise ++ [err, err] := by
  generalize hstream : first :: second :: keys = stream at h
  cases h with
  | done => cases hstream
  | last => cases hstream
  | pushedBack second => exact absurd (List.cons.inj (List.cons.inj hstream).2).1 hsecond
  | ahead noise =>
    cases noise with
    | nil => exact absurd (List.cons.inj (List.cons.inj hstream).2).1 hsecond
    | cons first noise =>
      cases noise with
      | nil => exact absurd (List.cons.inj (List.cons.inj hstream).2).1 hsecond
      | cons second noise => exact ⟨noise, (List.cons.inj (List.cons.inj hstream).2).2⟩

/-- The second key of a pair is pushed back where the pause begins. -/
theorem Paused.pushed {second third : ℤ} {keys noise : List ℤ}
    (h : third :: keys = noise ++ [err, err]) : Paused (second :: keys) := by
  cases noise with
  | nil =>
    obtain ⟨-, rfl⟩ := List.cons.inj h
    exact .pushedBack second
  | cons next noise =>
    obtain ⟨-, rfl⟩ := List.cons.inj h
    exact .ahead (second :: noise)

/-! ## One call -/

/-- A loop over a sequence does not read beyond the first result without data. -/
theorem readUntil_before {final : ℤ → Bool} (guard : ℕ) {keys : List ℤ} (h : err ∈ keys)
    (rest : List ℤ) :
    readUntil final guard (keys ++ rest) =
      ((readUntil final guard keys).1, (readUntil final guard keys).2.1,
        (readUntil final guard keys).2.2 ++ rest) := by
  induction guard generalizing keys with
  | zero => rfl
  | succ guard ih =>
    cases keys with
    | nil => cases h
    | cons next keys =>
      unfold readUntil readKey
      dsimp only [List.cons_append]
      by_cases hnext : next = err
      · rw [if_pos hnext, if_pos hnext]
      · rw [if_neg hnext, if_neg hnext]
        cases hfinal : final next with
        | true => rw [if_pos rfl, if_pos rfl]
        | false =>
          rw [if_neg Bool.false_ne_true, if_neg Bool.false_ne_true,
            ih ((List.mem_cons.mp h).resolve_left (Ne.symm hnext))]

theorem parseDefinedEscapeSequence_before (second third : ℤ) {keys : List ℤ} (h : err ∈ keys)
    (rest : List ℤ) :
    parseDefinedEscapeSequence second third (keys ++ rest) =
      ((parseDefinedEscapeSequence second third keys).1,
        (parseDefinedEscapeSequence second third keys).2 ++ rest) := by
  unfold parseDefinedEscapeSequence
  rw [readUntil_before 8 h]
  split_ifs <;> rfl

/-- A call on a stream with a pause at its end does not look at what comes behind it. -/
theorem readInputEvent_paused {keys : List ℤ} (h : Paused keys) (hne : keys ≠ []) :
    ∃ event left, Paused left ∧
      ∀ rest, readInputEvent (keys ++ rest) = (event, left ++ rest) := by
  obtain ⟨first, keys, rfl⟩ := List.exists_cons_of_ne_nil hne
  by_cases hfirst : first = keyEscape
  · subst hfirst
    cases keys with
    | nil => exact absurd (h.getLast? (List.cons_ne_nil _ _)) (by decide)
    | cons second keys =>
      by_cases hsecond : second = err
      · subst hsecond
        exact ⟨_, keys, h.tail.tail, fun rest => readInputEvent_lone rfl⟩
      obtain ⟨noise, hnoise⟩ := h.ends hsecond
      cases keys with
      | nil => exact absurd hnoise.symm (List.append_ne_nil_of_right_ne_nil _ (List.cons_ne_nil _ _))
      | cons third keys =>
        by_cases hthird : third = err
        · subst hthird
          exact ⟨_, second :: keys, .pushed hnoise, fun rest => readInputEvent_unread hsecond rfl⟩
        have hmem : err ∈ keys := by
          have hall : err ∈ third :: keys := hnoise ▸ List.mem_append_right _ List.mem_cons_self
          exact (List.mem_cons.mp hall).resolve_left (Ne.symm hthird)
        have hpaused := h.tail.tail.tail
        by_cases hreport : second = key '[' ∧ third = key '<'
        · have hleft : (readUntil endsReport 32 keys).2.2 <:+ keys := readUntil_suffix 32 keys
          refine ⟨parseReport ((readUntil endsReport 32 keys).1.map byteOf)
            (readUntil endsReport 32 keys).2.1, _, hpaused.suffix hleft, fun rest => ?_⟩
          rw [List.cons_append, List.cons_append, List.cons_append,
            readInputEvent_sequence hsecond hthird, if_pos hreport, readUntil_before 32 hmem]
        · refine ⟨{ key := (parseDefinedEscapeSequence second third keys).1, parsedEscape := true }, _,
            hpaused.suffix (parseDefinedEscapeSequence_suffix second third keys), fun rest => ?_⟩
          rw [List.cons_append, List.cons_append, List.cons_append,
            readInputEvent_sequence hsecond hthird, if_neg hreport,
            parseDefinedEscapeSequence_before second third hmem]
  · exact ⟨_, keys, h.tail, fun rest => readInputEvent_typed hfirst (keys ++ rest)⟩

/-! ## All calls -/

theorem events_paused {keys : List ℤ} (h : Paused keys) (rest : List ℤ) :
    events (keys ++ rest) = events keys ++ events rest := by
  induction hlength : keys.length using Nat.strong_induction_on generalizing keys with
  | _ length ih =>
    cases keys with
    | nil => rfl
    | cons first keys =>
      obtain ⟨event, left, hleft, hcall⟩ := readInputEvent_paused h (List.cons_ne_nil first keys)
      have hshorter := readInputEvent_shorter (List.cons_ne_nil first keys)
      have hself := hcall []
      rw [List.append_nil, List.append_nil] at hself
      rw [hself, hlength] at hshorter
      have hmore := hcall rest
      rw [List.cons_append] at hmore ⊢
      rw [events_cons, events_cons, hmore, hself, List.cons_append]
      exact congrArg _ (ih left.length hshorter hleft rfl)

/-- Whatever bytes have come, behind a pause of two results everything is parsed as if it came first, so
a session of inputs is decoded as it was sent. -/
theorem events_after_pause (noise : List ℤ) :
    (∀ rest, events (noise ++ err :: err :: rest) =
        events (noise ++ [err, err]) ++ events rest) ∧
      ∀ inputs : List TerminalInput,
        events (noise ++ err :: err :: inputs.flatMap TerminalInput.keys) =
          events (noise ++ [err, err]) ++ inputs.map TerminalInput.event := by
  have hrest : ∀ rest, events (noise ++ err :: err :: rest) =
      events (noise ++ [err, err]) ++ events rest := by
    intro rest
    have hsplit : noise ++ err :: err :: rest = (noise ++ [err, err]) ++ rest := by simp
    rw [hsplit, events_paused (.ahead noise)]
  exact ⟨hrest, fun inputs => by rw [hrest, events_keys]⟩

/-- A pause of one result is too short: the second of two Escapes is put back in front of it. -/
example :
    events ([keyEscape, keyEscape] ++ err :: [key '[', key 'Z']) ≠
      events ([keyEscape, keyEscape] ++ [err]) ++ events [key '[', key 'Z'] := by
  intro h
  exact absurd (congrArg List.length h) (by decide)

end Mtop
