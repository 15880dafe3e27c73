import Mtop.Ui.InputParser

/-! What repeated calls of `read_input_event` make of a stream that arrives in pieces: the keys behind
a plain Escape, and the bytes of a sequence that is interrupted. -/
namespace Mtop
open Cxx
set_option autoImplicit false

/-! ## Behind Escape -/

/-- The keys of a stream, without the places where no data was there. -/
def dataKeys (stream : List ℤ) : List ℤ := stream.filter (· ≠ err)

/-- The keys that the events of a stream deliver. -/
def deliveredKeys (stream : List ℤ) : List ℤ := dataKeys ((events stream).map (·.key))

/-- Two keys stand right behind Escape. -/
def TwoBehind (stream : List ℤ) : Prop :=
  ∃ second third rest, stream = second :: third :: rest ∧ second ≠ err ∧ third ≠ err

theorem deliveredKeys_typed {stream : List ℤ} (h : keyEscape ∉ stream) :
    deliveredKeys stream = dataKeys stream := by
  unfold deliveredKeys
  rw [events_typed h, List.map_map]
  exact congrArg dataKeys (List.map_id stream)

/-- A call that delivers Escape and leaves this stream. -/
theorem deliveredKeys_escape {stream left : List ℤ} {parsedEscape : Bool}
    (h : readInputEvent (keyEscape :: stream) =
      ({ key := keyEscape, parsedEscape := parsedEscape }, left)) (hleft : keyEscape ∉ left) :
    deliveredKeys (keyEscape :: stream) = keyEscape :: dataKeys left := by
  rw [← deliveredKeys_typed hleft]
  unfold deliveredKeys
  rw [events_cons, h]
  rfl

/-- A key that starts no sequence is parsed as Escape, and so is the one after it. -/
theorem parseDefinedEscapeSequence_plain {second : ℤ} (h : second ≠ key '[') (h' : second ≠ key 'O')
    (third : ℤ) (keys : List ℤ) :
    parseDefinedEscapeSequence second third keys = (keyEscape, keys) := by
  unfold parseDefinedEscapeSequence
  rw [if_neg h', if_neg h]

/-- Escape and all keys behind it are delivered, once each and in order, exactly if the first two
results behind it are not both keys. -/
theorem escape_delivers_iff {stream : List ℤ} (hescape : keyEscape ∉ stream)
    (hplain : ∀ second ∈ (dataKeys stream).head?, second ≠ key '[' ∧ second ≠ key 'O') :
    deliveredKeys (keyEscape :: stream) = keyEscape :: dataKeys stream ↔ ¬ TwoBehind stream := by
  cases stream with
  | nil =>
    refine iff_of_true rfl ?_
    rintro ⟨second, third, rest, h, -⟩
    cases h
  | cons second keys =>
    rw [List.mem_cons, not_or] at hescape
    by_cases hsecond : second = err
    · subst hsecond
      have hcall : readInputEvent (keyEscape :: err :: keys) = ({ key := keyEscape }, keys) :=
        readInputEvent_lone rfl
      have hsame : dataKeys (err :: keys) = dataKeys keys := by simp [dataKeys]
      rw [hsame]
      refine iff_of_true (deliveredKeys_escape hcall hescape.2) ?_
      rintro ⟨second, third, rest, h, hdata, -⟩
      exact hdata (List.cons.inj h).1.symm
    have hdata : dataKeys (second :: keys) = second :: dataKeys keys :=
      List.filter_cons_of_pos (decide_eq_true hsecond)
    cases keys with
    | nil =>
      have hleft : keyEscape ∉ [second] := fun h => hescape.1 (List.mem_singleton.mp h)
      refine iff_of_true (deliveredKeys_escape (readInputEvent_unread hsecond rfl) hleft) ?_
      rintro ⟨second, third, rest, h, -⟩
      cases h
    | cons third keys =>
      have hlater := hescape.2
      rw [List.mem_cons, not_or] at hlater
      by_cases hthird : third = err
      · subst hthird
        have hleft : keyEscape ∉ second :: keys := fun h =>
          (List.mem_cons.mp h).elim hescape.1 hlater.2
        have hcall : readInputEvent (keyEscape :: second :: err :: keys) =
            ({ key := keyEscape }, second :: keys) := readInputEvent_unread hsecond rfl
        have hsame : dataKeys (second :: err :: keys) = dataKeys (second :: keys) := by
          simp [dataKeys, hsecond]
        rw [hsame]
        refine iff_of_true (deliveredKeys_escape hcall hleft) ?_
        rintro ⟨_, third, rest, h, -, hdata⟩
        exact hdata (List.cons.inj (List.cons.inj h).2).1.symm
      · rw [hdata] at hplain
        obtain ⟨hbracket, hletter⟩ := hplain second rfl
        have hcall : readInputEvent (keyEscape :: second :: third :: keys) =
            ({ key := keyEscape, parsedEscape := true }, keys) := by
          rw [readInputEvent_sequence hsecond hthird, if_neg fun h => hbracket h.1,
            parseDefinedEscapeSequence_plain hbracket hletter]
        rw [deliveredKeys_escape hcall hlater.2]
        refine iff_of_false (fun h => ?_) (not_not.mpr ⟨second, third, keys, rfl, hsecond, hthird⟩)
        have hlengths := congrArg List.length h
        have hdata' : dataKeys (third :: keys) = third :: dataKeys keys :=
          List.filter_cons_of_pos (decide_eq_true hthird)
        rw [hdata, hdata'] at hlengths
        simp only [List.length_cons] at hlengths
        omega

theorem escape_delivers_pushed_back :
    deliveredKeys [keyEscape, key 'j', err, key 'k'] = [keyEscape, key 'j', key 'k'] ↔
      ¬ TwoBehind [key 'j', err, key 'k'] :=
  escape_delivers_iff (by decide) (by decide)

/-- Two keys typed right after Escape are lost. -/
theorem escape_loses_keys :
    ¬ ∀ stream : List ℤ, keyEscape ∉ stream →
      (∀ second ∈ (dataKeys stream).head?, second ≠ key '[' ∧ second ≠ key 'O') →
        deliveredKeys (keyEscape :: stream) = keyEscape :: dataKeys stream := by
  intro h
  exact absurd (h [key 'j', key 'k'] (by decide) (by decide)) (by decide)

/-! ## Interrupted sequences -/

def keysOf (text : Text) : List ℤ := text.map key

def IsNumber (text : Text) : Prop := text ≠ [] ∧ ∀ c ∈ text, c.isDigit = true

/-- What follows `ESC [`: the report of a mouse, or the number of a function key. -/
inductive EscapeBody : Text → Prop
  | report {button x y : Text} {final : Char} (hbutton : IsNumber button) (hx : IsNumber x)
      (hy : IsNumber y) (hfinal : final = 'M' ∨ final = 'm') :
      EscapeBody ('<' :: ((button ++ ';' :: (x ++ ';' :: y)) ++ [final]))
  | functionKey {digit : Char} {number : Text} (hdigit : digit.isDigit = true)
      (hnumber : ∀ c ∈ number, c.isDigit = true) : EscapeBody (digit :: (number ++ ['~']))

/-- The bytes of a sequence, with no data at some places between them; all bytes up to the third are
there at once. -/
def Interrupted (body : Text) (stream : List ℤ) : Prop :=
  ∃ third rest before after, body = third :: rest ∧
    stream = keyEscape :: key '[' :: key third :: (before ++ err :: after) ∧
    dataKeys (before ++ after) = keysOf rest ∧ dataKeys after ≠ []

/-- No byte behind `ESC` comes out as a key. -/
def Swallowed (body : Text) (stream : List ℤ) : Prop :=
  ∀ c ∈ '[' :: body, ∀ event ∈ events stream, ¬ (event.key = key c ∧ event.parsedEscape = false)

theorem byteOf_key {c : Char} (h : c.toNat < 256) : byteOf (key c) = c := by
  have hmod : (key c % 256).toNat = c.toNat := by
    unfold key
    omega
  unfold byteOf
  rw [hmod]
  exact Char.ofNat_toNat c

theorem endsSequence_digit {c : Char} (h : c.isDigit = true) : endsSequence (key c) = false := by
  have hrange := toNat_of_isDigit h
  have htilde : ('~' : Char).toNat = 126 := rfl
  unfold endsSequence
  rw [byteOf_key (by omega), isAlpha_of_isDigit h, Bool.or_false]
  unfold key
  exact decide_eq_false (by omega)

theorem endsReport_inner {c : Char} (h : c.isDigit = true ∨ c = ';') :
    endsReport (key c) = false := by
  have hrange : c.toNat < 60 := by
    rcases h with h | rfl
    · have := toNat_of_isDigit h
      omega
    · decide
  have hletters : ('M' : Char).toNat = 77 ∧ ('m' : Char).toNat = 109 := ⟨rfl, rfl⟩
  unfold endsReport key
  rw [decide_eq_false (by omega), decide_eq_false (by omega)]
  rfl

theorem dataKeys_append (a b : List ℤ) : dataKeys (a ++ b) = dataKeys a ++ dataKeys b :=
  List.filter_append a b

theorem dataKeys_err (stream : List ℤ) : dataKeys (err :: stream) = dataKeys stream := by
  simp [dataKeys]

theorem dataKeys_eq_self {stream : List ℤ} (h : err ∉ stream) : dataKeys stream = stream :=
  List.filter_eq_self.mpr fun _ hnext => decide_eq_true fun heq => h (heq ▸ hnext)

/-- The first missing data comes before the last byte. -/
theorem first_missing {before after middle : List ℤ} {final : ℤ}
    (hdata : dataKeys (before ++ after) = middle ++ [final]) (hafter : dataKeys after ≠ []) :
    ∃ before' after', before ++ err :: after = before' ++ err :: after' ∧ err ∉ before' ∧
      dataKeys after' ≠ [] ∧ (∀ next ∈ before', next ∈ middle) ∧
      ∀ next ∈ after', next = err ∨ next ∈ middle ++ [final] := by
  have hmem : err ∈ before ++ err :: after := List.mem_append_right before List.mem_cons_self
  obtain ⟨before', after', hsplit, hfree⟩ := List.eq_append_cons_of_mem hmem
  have hlater : dataKeys after' ≠ [] := by
    rcases List.append_eq_append_iff.mp hsplit with ⟨between, hbefore, htail⟩ | ⟨between, -, htail⟩
    · cases between with
      | nil =>
        obtain rfl : after = after' := (List.cons.inj htail).2
        exact hafter
      | cons next between =>
        obtain ⟨rfl, -⟩ := List.cons.inj htail
        exact absurd (hbefore ▸ List.mem_append_right before List.mem_cons_self) hfree
    · cases between with
      | nil =>
        obtain rfl : after' = after := (List.cons.inj htail).2
        exact hafter
      | cons next between =>
        have hcut : after' = between ++ err :: after := (List.cons.inj htail).2
        rw [hcut, dataKeys_append, dataKeys_err]
        exact List.append_ne_nil_of_right_ne_nil _ hafter
  have hall : before' ++ dataKeys after' = middle ++ [final] := by
    have hsame := congrArg dataKeys hsplit
    rw [dataKeys_append, dataKeys_err, ← dataKeys_append, hdata, dataKeys_append, dataKeys_err,
      dataKeys_eq_self hfree] at hsame
    exact hsame.symm
  refine ⟨before', after', hsplit, hfree, hlater, fun next hnext => ?_, fun next hnext => ?_⟩
  · rcases List.eq_nil_or_concat (dataKeys after') with hnil | ⟨front, last, hlast⟩
    · exact absurd hnil hlater
    · rw [hlast, List.concat_eq_append, ← List.append_assoc] at hall
      rw [← List.append_inj_left' hall rfl]
      exact List.mem_append_left front hnext
  · by_cases hnone : next = err
    · exact .inl hnone
    · rw [← hall]
      exact .inr (List.mem_append_right before'
        (List.mem_filter.mpr ⟨hnext, decide_eq_true hnone⟩))

/-- What follows the first missing data comes out byte by byte. -/
theorem leaks_of_left {third : ℤ} {tail left after : List ℤ} {event : ParsedInput}
    (hcall : readInputEvent (keyEscape :: key '[' :: third :: tail) = (event, left))
    (hleft : left <:+ tail) (hafter : after <:+ left) (hescape : keyEscape ∉ tail) :
    ∀ next ∈ after, ({ key := next } : ParsedInput) ∈
      events (keyEscape :: key '[' :: third :: tail) := by
  intro next hnext
  rw [events_cons, hcall, events_typed fun h => hescape (hleft.subset h)]
  exact List.mem_cons_of_mem _ (List.mem_map_of_mem (hafter.subset hnext))

theorem key_ne_err (c : Char) : key c ≠ err := by
  unfold key err
  omega

theorem key_injective {a b : Char} (h : key a = key b) : a = b :=
  Char.toNat_inj.mp (Int.ofNat.inj h)

theorem mem_keysOf {c : Char} {text : Text} : key c ∈ keysOf text ↔ c ∈ text := by
  refine ⟨fun h => ?_, List.mem_map_of_mem⟩
  obtain ⟨other, hmem, hkey⟩ := List.mem_map.mp h
  exact key_injective hkey ▸ hmem

/-- A call on an interrupted sequence leaves everything behind the first missing data. -/
theorem interrupted_call {third : Char} {middle : Text} {before : List ℤ} (after : List ℤ)
    (hbody : (third = '<' ∧ ∀ c ∈ middle, c.isDigit = true ∨ c = ';') ∨
      (third.isDigit = true ∧ ∀ c ∈ middle, c.isDigit = true))
    (herr : err ∉ before) (hbefore : ∀ next ∈ before, next ∈ keysOf middle) :
    ∃ event left, readInputEvent (keyEscape :: key '[' :: key third :: (before ++ err :: after)) =
      (event, left) ∧ left <:+ before ++ err :: after ∧ after <:+ left := by
  rw [readInputEvent_sequence (key_ne_err _) (key_ne_err _)]
  rcases hbody with ⟨rfl, hmiddle⟩ | ⟨hdigit, hmiddle⟩
  · rw [if_pos ⟨rfl, rfl⟩]
    refine ⟨_, _, rfl, readUntil_suffix 32 _, readUntil_leaves 32 herr fun next hnext => ?_⟩
    obtain ⟨c, hc, rfl⟩ := List.mem_map.mp (hbefore next hnext)
    exact endsReport_inner (hmiddle c hc)
  · have hrange := toNat_of_isDigit hdigit
    have hother : ∀ c : Char, c.isDigit = false → key third ≠ key c := by
      intro c hc h
      rw [key_injective h, hc] at hdigit
      cases hdigit
    rw [if_neg fun h => hother '<' rfl h.2]
    unfold parseDefinedEscapeSequence
    rw [if_neg (by decide), if_pos rfl, if_neg (hother 'Z' rfl), byteOf_key (by omega),
      if_pos hdigit]
    refine ⟨_, _, rfl, readUntil_suffix 8 _, readUntil_leaves 8 herr fun next hnext => ?_⟩
    obtain ⟨c, hc, rfl⟩ := List.mem_map.mp (hbefore next hnext)
    exact endsSequence_digit (hmiddle c hc)

/-- The shape that both kinds of sequence share. -/
theorem EscapeBody.split {body : Text} (h : EscapeBody body) :
    ∃ third middle final, body = third :: (middle ++ [final]) ∧ '\x1b' ∉ body ∧
      ((third = '<' ∧ ∀ c ∈ middle, c.isDigit = true ∨ c = ';') ∨
        (third.isDigit = true ∧ ∀ c ∈ middle, c.isDigit = true)) := by
  cases h with
  | @report button x y final hbutton hx hy hfinal =>
    have hmiddle : ∀ c ∈ button ++ ';' :: (x ++ ';' :: y), c.isDigit = true ∨ c = ';' := by
      intro c hc
      simp only [List.mem_append, List.mem_cons] at hc
      rcases hc with hc | hc | hc | hc | hc
      · exact .inl (hbutton.2 c hc)
      · exact .inr hc
      · exact .inl (hx.2 c hc)
      · exact .inr hc
      · exact .inl (hy.2 c hc)
    refine ⟨_, _, final, rfl, fun hmem => ?_, .inl ⟨rfl, hmiddle⟩⟩
    rw [List.mem_cons, List.mem_append, List.mem_singleton] at hmem
    rcases hmem with hmem | hmem | hmem
    · cases hmem
    · rcases hmiddle _ hmem with hdigit | hsemicolon
      · cases hdigit
      · cases hsemicolon
    · rw [← hmem] at hfinal
      exact absurd hfinal (by decide)
  | @functionKey digit number hdigit hnumber =>
    refine ⟨digit, number, '~', rfl, fun hmem => ?_, .inr ⟨hdigit, hnumber⟩⟩
    rw [List.mem_cons, List.mem_append, List.mem_singleton] at hmem
    rcases hmem with hmem | hmem | hmem
    · rw [← hmem] at hdigit
      cases hdigit
    · cases hnumber _ hmem
    · cases hmem

/-- However a sequence is interrupted, some of its bytes come out as keys. -/
theorem interrupted_leaks {body : Text} {stream : List ℤ} (hbody : EscapeBody body)
    (h : Interrupted body stream) : ¬ Swallowed body stream := by
  obtain ⟨third, rest, before, after, hrest, hstream, hdata, hafter⟩ := h
  obtain ⟨third', middle, final, hsplit, hescape, hshape⟩ := hbody.split
  obtain ⟨rfl, rfl⟩ := List.cons.inj (hrest.symm.trans hsplit)
  have hkeys : keysOf (middle ++ [final]) = keysOf middle ++ [key final] := List.map_append
  rw [hkeys] at hdata
  obtain ⟨before', after', htail, herr, hlater, hbefore, hwithin⟩ := first_missing hdata hafter
  rw [htail] at hstream
  obtain ⟨event, left, hcall, hleft, hkept⟩ := interrupted_call after' hshape herr hbefore
  obtain ⟨next, hnext⟩ := List.exists_mem_of_ne_nil _ hlater
  obtain ⟨hmem, hdatum⟩ := List.mem_filter.mp hnext
  have hbyte : next ∈ keysOf (middle ++ [final]) := by
    rw [hkeys]
    exact (hwithin next hmem).resolve_left (of_decide_eq_true hdatum)
  obtain ⟨c, hc, rfl⟩ := List.mem_map.mp hbyte
  have hplain : keyEscape ∉ before' ++ err :: after' := by
    have htyped : ∀ text : Text, '\x1b' ∉ text → keyEscape ∉ keysOf text :=
      fun text hfree hmem => hfree (mem_keysOf.mp hmem)
    rw [hrest, List.mem_cons, not_or] at hescape
    have hall := htyped _ hescape.2
    rw [List.mem_append, List.mem_cons]
    rintro (hmem | hmem | hmem)
    · rw [hkeys] at hall
      exact hall (List.mem_append_left _ (hbefore _ hmem))
    · cases hmem
    · rcases hwithin _ hmem with hnone | hmem
      · cases hnone
      · rw [hkeys] at hall
        exact hall hmem
  intro hswallowed
  have hleak := leaks_of_left hcall hleft hkept hplain (key c) hmem
  rw [← hstream] at hleak
  refine hswallowed c ?_ _ hleak ⟨rfl, rfl⟩
  rw [hrest]
  exact List.mem_cons_of_mem _ (List.mem_cons_of_mem _ hc)

/-- The release of the first button, with no data before its last byte. -/
def lateRelease : List ℤ := keysOf (str "\x1b[<0;5;3") ++ [err, key 'm']

theorem lateRelease_body : EscapeBody (str "<0;5;3m") := by
  have hnumber : ∀ c : Char, c.isDigit = true → IsNumber [c] := fun c h =>
    ⟨List.cons_ne_nil c [], fun d hd => (List.mem_singleton.mp hd).symm ▸ h⟩
  rw [str_eq]
  exact .report (hnumber '0' rfl) (hnumber '5' rfl) (hnumber '3' rfl) (.inr rfl)

theorem lateRelease_interrupted : Interrupted (str "<0;5;3m") lateRelease :=
  ⟨'<', str "0;5;3m", keysOf (str "0;5;3"), [key 'm'], by decide +kernel⟩

theorem interrupted_leaks_late : ¬ Swallowed (str "<0;5;3m") lateRelease :=
  interrupted_leaks lateRelease_body lateRelease_interrupted

/-- The last byte comes out as `m`, which sorts by memory. -/
theorem interrupted_sorts_by_memory :
    ¬ ∀ body stream, EscapeBody body → Interrupted body stream → Swallowed body stream := by
  intro h
  have hleak : ∃ event ∈ events lateRelease, event.key = key 'm' ∧ event.parsedEscape = false := by
    decide +kernel
  obtain ⟨event, hevent, htyped⟩ := hleak
  exact h _ _ lateRelease_body lateRelease_interrupted 'm' (by simp) event hevent htyped

end Mtop
