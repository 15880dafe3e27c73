import Mtop.Library.JsonText

/-! Well-formed UTF-8 over bytes: the encodings of code points one after the other. Bytes below
`0x80` stand for themselves and cut a text into parts that are well formed on their own. -/
namespace Rfc8259
open Cxx
set_option autoImplicit false

/-! ## Encodings -/

/-- The bytes of a character; surrogates are no characters. -/
def encode (c : Char) : Text := utf8 c.toNat

/-- A text that some characters encode to: nothing cut off, nothing overlong, no surrogate. -/
def WellFormed (text : Text) : Prop := ∃ chars : List Char, text = chars.flatMap encode

theorem toNat_ofNat {n : ℕ} (h : n < 0xD800) : (Char.ofNat n).toNat = n := by
  unfold Char.ofNat
  rw [dif_pos (.inl h)]
  rfl

theorem encode_ascii {c : Char} (h : c.toNat < 0x80) : encode c = [c] := by
  unfold encode utf8
  rw [if_pos h, Char.ofNat_toNat]

/-- Longer encodings have no byte below `0x80`. -/
theorem encode_bytes {c : Char} (h : 0x80 ≤ c.toNat) : ∀ b ∈ encode c, 0x80 ≤ b.toNat := by
  have hlt : c.toNat < 0x110000 := by
    have : c.toNat < 0xD800 ∨ 0xDFFF < c.toNat ∧ c.toNat < 0x110000 := c.valid
    omega
  unfold encode utf8
  rw [if_neg (by omega)]
  intro b hb
  split at hb
  · simp only [List.mem_cons, List.not_mem_nil, or_false] at hb
    rcases hb with rfl | rfl
    all_goals
      rw [toNat_ofNat (by omega)]
      omega
  · split at hb
    · simp only [List.mem_cons, List.not_mem_nil, or_false] at hb
      rcases hb with rfl | rfl | rfl
      all_goals
        rw [toNat_ofNat (by omega)]
        omega
    · simp only [List.mem_cons, List.not_mem_nil, or_false] at hb
      rcases hb with rfl | rfl | rfl | rfl
      all_goals
        rw [toNat_ofNat (by omega)]
        omega

/-! ## Texts -/

theorem wellFormed_nil : WellFormed [] := ⟨[], rfl⟩

theorem WellFormed.append {a b : Text} (ha : WellFormed a) (hb : WellFormed b) :
    WellFormed (a ++ b) := by
  obtain ⟨chars, rfl⟩ := ha
  obtain ⟨chars', rfl⟩ := hb
  exact ⟨chars ++ chars', List.flatMap_append.symm⟩

theorem wellFormed_encode (c : Char) : WellFormed (encode c) :=
  ⟨[c], (List.flatMap_singleton ..).symm⟩

/-- A byte below `0x80` is a character of its own, wherever it stands. -/
theorem wellFormed_append_cons {a b : Text} {c : Char} (hc : c.toNat < 0x80) :
    WellFormed (a ++ c :: b) ↔ WellFormed a ∧ WellFormed b := by
  constructor
  · rintro ⟨chars, htext⟩
    induction chars generalizing a with
    | nil => exact absurd htext (by simp)
    | cons d chars ih =>
      rw [List.flatMap_cons] at htext
      rcases List.append_eq_append_iff.mp htext with ⟨middle, hd, hrest⟩ | ⟨middle, rfl, hrest⟩
      · cases middle with
        | nil =>
          -- The byte starts the next character.
          obtain ⟨-, hb⟩ := ih (a := []) hrest
          rw [List.append_nil] at hd
          exact ⟨hd ▸ wellFormed_encode d, hb⟩
        | cons e middle =>
          obtain ⟨rfl, hb⟩ := List.cons.inj hrest
          have hmem : c ∈ encode d := hd ▸ List.mem_append_right _ List.mem_cons_self
          have hascii : d.toNat < 0x80 := by
            by_contra hlong
            have := encode_bytes (not_lt.mp hlong) c hmem
            omega
          rw [encode_ascii hascii] at hd
          obtain ⟨rfl, hmiddle⟩ : a = [] ∧ middle = [] := by
            cases a with
            | nil => exact ⟨rfl, (List.cons.inj hd).2.symm⟩
            | cons e a => exact absurd (List.cons.inj hd).2 (by simp)
          rw [hmiddle] at hb
          exact ⟨wellFormed_nil, chars, hb⟩
      · obtain ⟨ha, hb⟩ := ih hrest.symm
        exact ⟨(wellFormed_encode d).append ha, hb⟩
  · rintro ⟨ha, hb⟩
    have hcons : WellFormed ([c] ++ b) := (encode_ascii hc ▸ wellFormed_encode c).append hb
    exact ha.append hcons

theorem wellFormed_cons {b : Text} {c : Char} (hc : c.toNat < 0x80) :
    WellFormed (c :: b) ↔ WellFormed b := by
  rw [← List.nil_append (c :: b), wellFormed_append_cons hc, and_iff_right wellFormed_nil]

/-- Behind a byte that starts a long encoding at least two more must follow. -/
theorem WellFormed.two_le_of_lead {c : Char} {t : Text} (h : WellFormed (c :: t))
    (hlead : 0xE0 ≤ c.toNat) : 2 ≤ t.length := by
  obtain ⟨chars, htext⟩ := h
  cases chars with
  | nil => cases htext
  | cons d chars =>
    rw [List.flatMap_cons] at htext
    unfold encode utf8 at htext
    split at htext
    · obtain ⟨rfl, -⟩ := List.cons.inj htext
      rw [toNat_ofNat (by omega)] at hlead
      omega
    · split at htext
      · obtain ⟨rfl, -⟩ := List.cons.inj htext
        rw [toNat_ofNat (by omega)] at hlead
        omega
      · split at htext
        all_goals
          rw [(List.cons.inj htext).2]
          simp

def isAscii (text : Text) : Bool := text.all fun c => c.toNat < 0x80

theorem isAscii_cons {c : Char} {text : Text} :
    isAscii (c :: text) = true ↔ c.toNat < 0x80 ∧ isAscii text = true := by
  unfold isAscii
  rw [List.all_cons, Bool.and_eq_true, decide_eq_true_eq]

theorem wellFormed_ascii_append {text rest : Text} (h : isAscii text = true) :
    WellFormed (text ++ rest) ↔ WellFormed rest := by
  induction text with
  | nil => exact Iff.rfl
  | cons c text ih =>
    obtain ⟨hc, htext⟩ := isAscii_cons.mp h
    exact (wellFormed_cons hc).trans (ih htext)

theorem wellFormed_of_isAscii {text : Text} (h : isAscii text = true) : WellFormed text := by
  have hnil : WellFormed (text ++ []) := (wellFormed_ascii_append h).mpr wellFormed_nil
  rwa [List.append_nil] at hnil

/-! ## Escaped strings -/

/-- Bytes from `0x80` on are left as they are, and every other one is written in ASCII. -/
structure AsciiEscaping (esc : Char → Text) : Prop where
  kept : ∀ c, 0x80 ≤ c.toNat → esc c = [c]
  written : ∀ c, c.toNat < 0x80 → isAscii (esc c) = true ∧ esc c ≠ []

section Escaped
variable {esc : Char → Text} (h : AsciiEscaping esc)
include h

/-- An escaped string is as well formed as the string. `before` is what is already copied of the
character that the next byte may belong to. -/
theorem wellFormed_flatMap (before s : Text) :
    WellFormed (before ++ s.flatMap esc) ↔ WellFormed (before ++ s) := by
  induction s generalizing before with
  | nil => exact Iff.rfl
  | cons c s ih =>
    rw [List.flatMap_cons]
    by_cases hc : c.toNat < 0x80
    · obtain ⟨hascii, hne⟩ := h.written c hc
      obtain ⟨d, written, hwritten⟩ := List.exists_cons_of_ne_nil hne
      rw [hwritten] at hascii ⊢
      obtain ⟨hd, hascii⟩ := isAscii_cons.mp hascii
      rw [List.cons_append, wellFormed_append_cons hd, wellFormed_append_cons hc,
        wellFormed_ascii_append hascii]
      exact and_congr_right fun _ => ih []
    · rw [h.kept c (not_lt.mp hc)]
      have hnext := ih (before ++ [c])
      rwa [List.append_assoc, List.append_assoc] at hnext

theorem wellFormed_quote (s : Text) : WellFormed (quote esc s) ↔ WellFormed s := by
  rw [quote, wellFormed_cons (by decide), wellFormed_append_cons (by decide),
    and_iff_left wellFormed_nil]
  exact wellFormed_flatMap h [] s

end Escaped

/-! ## Documents -/

section Documents
variable {esc : Char → Text}

theorem wellFormed_separated {ts : List Text} :
    WellFormed (separated ts) ↔ ∀ t ∈ ts, WellFormed t := by
  induction ts with
  | nil => exact ⟨fun _ _ ht => absurd ht List.not_mem_nil, fun _ => wellFormed_nil⟩
  | cons t ts ih =>
    rw [List.forall_mem_cons, ← ih]
    cases ts with
    | nil =>
      have hone : separated [t] = t := by simp [separated]
      rw [hone]
      exact (and_iff_left wellFormed_nil).symm
    | cons u ts =>
      rw [separated_cons_cons, wellFormed_append_cons (by decide)]

/-- Brackets around separated items. -/
theorem wellFormed_bracketed {first last : Char} (hfirst : first.toNat < 0x80)
    (hlast : last.toNat < 0x80) {ts : List Text} :
    WellFormed (first :: (separated ts ++ [last])) ↔ ∀ t ∈ ts, WellFormed t := by
  rw [wellFormed_cons hfirst, wellFormed_append_cons hlast, and_iff_left wellFormed_nil,
    wellFormed_separated]

theorem wellFormed_str (h : AsciiEscaping esc) (s : Text) :
    WellFormed (Doc.render esc (.str s)) ↔ WellFormed s :=
  wellFormed_quote h s

theorem wellFormed_num (n : NumberToken) : WellFormed (Doc.render esc (.num n)) := by
  refine wellFormed_of_isAscii (List.all_eq_true.mpr fun c hc => ?_)
  exact decide_eq_true (isNumberChar_range (n.text_chars c hc)).2

theorem wellFormed_bool (b : Bool) : WellFormed (Doc.render esc (.bool b)) := by
  have htrue : isAscii (str "true") = true := by simp [isAscii]
  have hfalse : isAscii (str "false") = true := by simp [isAscii]
  cases b with
  | true => exact wellFormed_of_isAscii htrue
  | false => exact wellFormed_of_isAscii hfalse

theorem wellFormed_arr (ds : List Doc) :
    WellFormed (Doc.render esc (.arr ds)) ↔ ∀ d ∈ ds, WellFormed (d.render esc) := by
  rw [Doc.render, Doc.renders_eq, wellFormed_bracketed (by decide) (by decide),
    List.forall_mem_map]

theorem wellFormed_obj (h : AsciiEscaping esc) (ms : List (Text × Doc)) :
    WellFormed (Doc.render esc (.obj ms)) ↔
      ∀ m ∈ ms, WellFormed m.1 ∧ WellFormed (m.2.render esc) := by
  rw [Doc.render, Doc.memberTexts_eq, wellFormed_bracketed (by decide) (by decide),
    List.forall_mem_map]
  refine forall₂_congr fun m _ => ?_
  rw [wellFormed_append_cons (by decide), wellFormed_quote h]

end Documents
end Rfc8259
