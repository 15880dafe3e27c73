import Mathlib.Data.List.Infix
import Mathlib.Data.Int.Basic
import Mathlib.Tactic.Ring

/-! `std::string` and the C character functions. A string is its sequence of bytes; a byte is
carried by the character with that code, so ASCII literals read as themselves and bytes from
0x80 on are opaque characters. -/
namespace Cxx
set_option autoImplicit false

abbrev Text := List Char

/-- A string literal. -/
@[irreducible] def str (literal : String) : Text := literal.toList

@[simp] theorem str_eq (literal : String) : str literal = literal.toList := by
  unfold str
  rfl

theorem str_inj {a b : String} : str a = str b ↔ a = b := by
  rw [str_eq, str_eq, String.toList_inj]

/-! ## Character classes of the C locale -/

def isSpace (c : Char) : Bool :=
  c == ' ' || c == '\t' || c == '\n' || c == '\x0b' || c == '\x0c' || c == '\r'

theorem toNat_of_isDigit {c : Char} (h : c.isDigit = true) : 48 ≤ c.toNat ∧ c.toNat ≤ 57 := by
  rw [Char.isDigit, Bool.and_eq_true, decide_eq_true_eq, decide_eq_true_eq] at h
  exact h

theorem isSpace_of_isDigit {c : Char} (h : c.isDigit = true) : isSpace c = false := by
  rw [← Bool.not_eq_true]
  intro hspace
  simp only [isSpace, Bool.or_eq_true, beq_iff_eq] at hspace
  rcases hspace with ((((rfl | rfl) | rfl) | rfl) | rfl) | rfl <;> cases h

theorem isAlpha_of_isDigit {c : Char} (h : c.isDigit = true) : c.isAlpha = false := by
  have hrange := toNat_of_isDigit h
  have hupper : ¬ ('A' : Char).val ≤ c.val := fun hle => by
    have hnat : 65 ≤ c.toNat := UInt32.le_iff_toNat_le.mp hle
    omega
  have hlower : ¬ ('a' : Char).val ≤ c.val := fun hle => by
    have hnat : 97 ≤ c.toNat := UInt32.le_iff_toNat_le.mp hle
    omega
  have hnotUpper : c.isUpper = false := decide_eq_false fun h => hupper h.1
  have hnotLower : c.isLower = false :=
    Bool.and_eq_false_iff.mpr (.inl (decide_eq_false hlower))
  exact Bool.or_eq_false_iff.mpr ⟨hnotUpper, hnotLower⟩

/-- `std::tolower` on every byte. -/
def lowercase (text : Text) : Text := text.map Char.toLower

/-! ## Searching -/

/-- `haystack.find(needle) != npos`. -/
def contains (haystack needle : Text) : Bool := decide (needle <:+: haystack)

/-- `text.rfind(needle, 0) == 0`. -/
def startsWith (text needle : Text) : Bool := needle.isPrefixOf text

/-- The part after the last character of `set`, or the whole text. -/
def afterLastOf (set : Text) (text : Text) : Text :=
  (text.reverse.takeWhile fun c => !set.contains c).reverse

/-- What stands behind a character that it has not decides nothing about a start. -/
theorem prefix_append_cons_iff {needle text : Text} {c : Char} (h : c ∉ needle) (rest : Text) :
    needle <+: text ++ c :: rest ↔ needle <+: text := by
  constructor
  · intro hstart
    rcases List.prefix_or_prefix_of_prefix hstart (List.prefix_append text (c :: rest)) with
      htext | ⟨tail, rfl⟩
    · exact htext
    · cases tail with
      | nil => simp
      | cons d tail =>
        have htail := (List.prefix_append_right_inj text).mp hstart
        have hd : d = c := (List.cons_prefix_cons.mp htail).1
        exact absurd (List.mem_append_right _ (hd ▸ List.mem_cons_self)) h
  · intro hstart
    exact hstart.trans (List.prefix_append _ _)

/-- Nothing is found across the start of a text without its last character. -/
theorem infix_append_iff_of_getLast {needle text rest : Text} {last : Char}
    (hlast : needle.getLast? = some last) (h : last ∉ rest) :
    needle <:+: text ++ rest ↔ needle <:+: text := by
  constructor
  · intro hfound
    rcases List.infix_append_iff_ne_nil.mp hfound with
      htext | hrest | ⟨left, right, _, hne, rfl, _, hright⟩
    · exact htext
    · exact absurd (hrest.mem (List.mem_of_getLast? hlast)) h
    · rw [List.getLast?_append_of_ne_nil _ hne] at hlast
      exact absurd (hright.mem (List.mem_of_getLast? hlast)) h
  · exact List.infix_append_of_infix_left

/-- Nothing is found across a character that it has not. -/
theorem infix_append_cons_iff {needle text rest : Text} {c : Char} (h : c ∉ needle) :
    needle <:+: text ++ c :: rest ↔ needle <:+: text ∨ needle <:+: rest := by
  constructor
  · intro hfound
    rcases List.infix_append_iff_ne_nil.mp hfound with
      htext | hrest | ⟨left, right, _, hne, rfl, _, hright⟩
    · exact .inl htext
    · rcases List.infix_cons_iff.mp hrest with hstart | hbehind
      · have hnil : needle <+: [] := (prefix_append_cons_iff h rest).mp hstart
        exact .inl (hnil.isInfix.trans List.nil_infix)
      · exact .inr hbehind
    · obtain ⟨d, right, rfl⟩ := List.exists_cons_of_ne_nil hne
      have hd : d = c := (List.cons_prefix_cons.mp hright).1
      exact absurd (List.mem_append_right _ (hd ▸ List.mem_cons_self)) h
  · rintro (htext | hrest)
    · exact List.infix_append_of_infix_left htext
    · exact List.infix_append_of_infix_right (List.infix_cons hrest)

/-! ## Decimal text -/

/-- `std::to_string` of an unsigned number. -/
def natText (n : ℕ) : Text := Nat.toDigits 10 n

/-- `std::to_string` of a signed number. -/
def intText (n : ℤ) : Text :=
  if n < 0 then '-' :: natText n.natAbs else natText n.natAbs

theorem natText_isDigit (n : ℕ) : ∀ c ∈ natText n, c.isDigit = true :=
  fun _ hc => Nat.isDigit_of_mem_toDigits (by omega) (by omega) hc

theorem natText_ne_nil (n : ℕ) : natText n ≠ [] := Nat.toDigits_ne_nil

theorem natText_cons (n : ℕ) : ∃ c digits, natText n = c :: digits ∧ c.isDigit = true := by
  obtain ⟨c, digits, h⟩ := List.exists_cons_of_ne_nil (natText_ne_nil n)
  exact ⟨c, digits, h, natText_isDigit n c (h ▸ List.mem_cons_self)⟩

theorem takeWhile_digits {digits rest : Text} (h : ∀ c ∈ digits, c.isDigit = true)
    (hrest : ∀ c ∈ rest.head?, c.isDigit = false) :
    (digits ++ rest).takeWhile Char.isDigit = digits ∧
      (digits ++ rest).dropWhile Char.isDigit = rest := by
  rw [List.takeWhile_append_of_pos h, List.dropWhile_append_of_pos h]
  cases rest with
  | nil => exact ⟨List.append_nil digits, rfl⟩
  | cons c rest =>
    have hc := hrest c rfl
    constructor
    · rw [List.takeWhile_cons_of_neg (by simp [hc]), List.append_nil]
    · rw [List.dropWhile_cons_of_neg (by simp [hc])]

theorem natText_injective : Function.Injective natText := by
  intro a b h
  have ha := Nat.ofDigitChars_ten_toDigits (n := a)
  have hb := Nat.ofDigitChars_ten_toDigits (n := b)
  rw [natText, natText] at h
  rw [← ha, ← hb, h]

theorem minus_notMem_natText (n : ℕ) : '-' ∉ natText n :=
  fun h => absurd (natText_isDigit n _ h) (by decide)

theorem intText_injective : Function.Injective intText := by
  intro a b h
  unfold intText at h
  split at h <;> split at h
  · have := natText_injective (List.cons.inj h).2
    omega
  · exact absurd (h ▸ List.mem_cons_self) (minus_notMem_natText _)
  · exact absurd (h.symm ▸ List.mem_cons_self) (minus_notMem_natText _)
  · have := natText_injective h
    omega

theorem intText_ne_nil (n : ℤ) : intText n ≠ [] := by
  unfold intText
  split
  · exact List.cons_ne_nil _ _
  · exact natText_ne_nil _

end Cxx
