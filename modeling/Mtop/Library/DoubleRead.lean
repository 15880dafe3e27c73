import Mtop.Library.DoubleRound
import Mtop.Library.JsonNumber

/-! `strtod` on the decimals that `printf` writes: it reads the digits back and rounds once. -/
namespace Cxx
set_option autoImplicit false

/-! ## Decimals -/

/-- The digits of a number, with a point before this many of them. -/
def decimalText (places n : ℕ) : Text :=
  natText (n / 10 ^ places) ++ if places = 0 then [] else '.' :: Double.padded places n

theorem fixedText_eq_decimalText (places : ℕ) (q : ℚ≥0) :
    Double.fixedText places (.finite false q) =
      decimalText places (Double.roundHalfEven (q * 10 ^ places)) := rfl

/-- What follows a number cannot be a part of it. -/
def EndsNumber (rest : Text) : Prop :=
  ∀ c ∈ rest.head?, c.isDigit = false ∧ c ≠ '.' ∧ c.toLower ≠ 'e' ∧ c.toLower ≠ 'x'

theorem digitsValue_eq {digits : Text} (h : ∀ c ∈ digits, c.isDigit = true) (start : ℕ) :
    digits.foldl (fun n c => n * 10 + digitValue c) start = Nat.ofDigitChars 10 digits start := by
  induction digits generalizing start with
  | nil => rfl
  | cons c digits ih =>
    have hc := h c List.mem_cons_self
    have hvalue : digitValue c = c.toNat - '0'.toNat := if_pos hc
    rw [List.foldl_cons, Nat.ofDigitChars_cons, ih fun d hd => h d (List.mem_cons_of_mem c hd),
      hvalue, Nat.mul_comm start]

theorem digitsValue_decimal (places n : ℕ) :
    digitsValue 10 (natText (n / 10 ^ places) ++ Double.padded places n) = n := by
  have hdigits : ∀ c ∈ natText (n / 10 ^ places) ++ Double.padded places n, c.isDigit = true :=
    fun c hc => (List.mem_append.mp hc).elim (natText_isDigit _ c) (Rfc8259.padded_isDigit _ _ c)
  unfold digitsValue
  have hlast : Nat.ofDigitChars 10 (Double.padded places n) 0 = n % 10 ^ places :=
    Rfc8259.natOf_padded places n
  have hfirst : Nat.ofDigitChars 10 (natText (n / 10 ^ places)) 0 = n / 10 ^ places :=
    Nat.ofDigitChars_ten_toDigits
  rw [digitsValue_eq hdigits, Nat.ofDigitChars_append, hfirst, Nat.ofDigitChars_eq_ofDigitChars_zero,
    Rfc8259.padded_length, hlast]
  exact Nat.div_add_mod n (10 ^ places)

theorem scanMantissa_decimalText (places n : ℕ) {rest : Text} (h : EndsNumber rest) :
    scanMantissa Char.isDigit (decimalText places n ++ rest) =
      (natText (n / 10 ^ places) ++ Double.padded places n, places, rest) := by
  have hrest : ∀ c ∈ rest.head?, c.isDigit = false := fun c hc => (h c hc).1
  unfold scanMantissa decimalText
  by_cases hplaces : places = 0
  · subst hplaces
    obtain ⟨hdigits, hleft⟩ := takeWhile_digits (natText_isDigit (n / 10 ^ 0)) hrest
    rw [if_pos rfl, List.append_nil, hdigits, hleft]
    dsimp only
    split
    · next rest =>
      exact absurd rfl (h '.' rfl).2.1
    · rw [Double.padded, List.append_nil]
  · have hpoint : ∀ c ∈ ('.' :: (Double.padded places n ++ rest)).head?, c.isDigit = false := by
      simp
    obtain ⟨hdigits, hleft⟩ := takeWhile_digits (natText_isDigit (n / 10 ^ places)) hpoint
    obtain ⟨hdigits', hleft'⟩ := takeWhile_digits (Rfc8259.padded_isDigit places n) hrest
    rw [if_neg hplaces, List.append_assoc, List.cons_append, hdigits, hleft]
    show (natText (n / 10 ^ places) ++ (Double.padded places n ++ rest).takeWhile Char.isDigit,
      ((Double.padded places n ++ rest).takeWhile Char.isDigit).length,
      (Double.padded places n ++ rest).dropWhile Char.isDigit) = _
    rw [hdigits', hleft', Rfc8259.padded_length]

/-! ## Reading them -/

theorem toLower_of_isDigit {c : Char} (h : c.isDigit = true) : c.toLower = c := by
  have hrange := toNat_of_isDigit h
  have hupper : ¬ ('A' : Char).val ≤ c.val := fun hle => by
    have hnat : 65 ≤ c.toNat := UInt32.le_iff_toNat_le.mp hle
    omega
  unfold Char.toLower
  exact dif_neg fun h => hupper h.1

/-- A text that starts with a digit is a decimal number, unless it starts with `0x`. -/
theorem scanUnsigned_digit {c : Char} {rest : Text} (hc : c.isDigit = true)
    (hrest : ∀ d ∈ rest.head?, d.toLower ≠ 'x') :
    scanUnsigned (c :: rest) = scanDecimal (c :: rest) := by
  have hother : ∀ (d : Char) (word : Text), d.isDigit = false →
      startsWith (lowercase (c :: rest)) (d :: word) = false := by
    intro d word hd
    have hne : d ≠ c := fun heq => by
      rw [heq, hc] at hd
      cases hd
    show (d == c.toLower && _) = false
    rw [toLower_of_isDigit hc, beq_eq_false_iff_ne.mpr hne, Bool.false_and]
  have hhex : startsWith (lowercase (c :: rest)) ['0', 'x'] = false := by
    show ('0' == c.toLower && List.isPrefixOf ['x'] (lowercase rest)) = false
    cases rest with
    | nil => exact Bool.and_false _
    | cons d rest =>
      have hne : 'x' ≠ d.toLower := (hrest d rfl).symm
      show (_ && ('x' == d.toLower && _)) = false
      rw [beq_eq_false_iff_ne.mpr hne, Bool.false_and, Bool.and_false]
  have hinfinity := hother 'i' ['n', 'f', 'i', 'n', 'i', 't', 'y'] rfl
  have hinf := hother 'i' ['n', 'f'] rfl
  have hnan := hother 'n' ['a', 'n'] rfl
  have hwords : str "infinity" = 'i' :: ['n', 'f', 'i', 'n', 'i', 't', 'y'] ∧
      str "inf" = 'i' :: ['n', 'f'] ∧ str "nan" = 'n' :: ['a', 'n'] ∧ str "0x" = ['0', 'x'] := by
    simp only [str_eq]
    decide
  unfold scanUnsigned
  dsimp only
  rw [hwords.1, hwords.2.1, hwords.2.2.1, hwords.2.2.2, hinfinity, hinf, hnan, hhex]
  rfl

theorem scanDecimal_decimalText (places n : ℕ) {rest : Text} (h : EndsNumber rest) :
    scanDecimal (decimalText places n ++ rest) =
      some (Double.roundMagnitude false (n / 10 ^ places), rest) := by
  have hexponent : scanExponent 'e' rest = (0, rest) := by
    cases rest with
    | nil => rfl
    | cons c rest => exact if_neg (h c rfl).2.2.1
  have hne : natText (n / 10 ^ places) ++ Double.padded places n ≠ [] :=
    List.append_ne_nil_of_left_ne_nil (natText_ne_nil _) _
  have hscaled : Double.scaled 10 n (0 - (places : ℤ)) = n / 10 ^ places := by
    rw [Double.scaled_eq, zero_sub, zpow_neg, zpow_natCast, div_eq_mul_inv]
    rfl
  unfold scanDecimal
  rw [scanMantissa_decimalText places n h]
  dsimp only
  rw [if_neg hne, hexponent, digitsValue_decimal]
  dsimp only
  rw [hscaled]

/-- The digits are read back and rounded once. -/
theorem strtod_decimalText (places n : ℕ) {rest : Text} (h : EndsNumber rest) :
    strtod (decimalText places n ++ rest) =
      (Double.roundMagnitude false (n / 10 ^ places), rest) := by
  obtain ⟨c, digits, hcons, hc⟩ := natText_cons (n / 10 ^ places)
  have htext : decimalText places n ++ rest = c :: (digits ++
      ((if places = 0 then [] else '.' :: Double.padded places n) ++ rest)) := by
    rw [decimalText, hcons]
    simp
  have hsecond : ∀ d ∈ (digits ++
      ((if places = 0 then [] else '.' :: Double.padded places n) ++ rest)).head?,
      d.toLower ≠ 'x' := by
    intro d hd hx
    cases digits with
    | cons e digits =>
      obtain rfl : e = d := Option.some.inj hd
      have hdigit := natText_isDigit _ e (hcons ▸ List.mem_cons_of_mem c List.mem_cons_self)
      rw [toLower_of_isDigit hdigit] at hx
      rw [hx] at hdigit
      cases hdigit
    | nil =>
      split at hd
      · exact (h d hd).2.2.2 hx
      · obtain rfl : '.' = d := Option.some.inj hd
        exact absurd hx (by decide)
  have hblank : isSpace c = false := isSpace_of_isDigit hc
  have hsign : c ≠ '-' ∧ c ≠ '+' := by
    constructor <;> intro heq <;> rw [heq] at hc <;> cases hc
  have hdecimal := scanUnsigned_digit hc hsecond
  rw [← htext, scanDecimal_decimalText places n h, htext] at hdecimal
  unfold strtod
  rw [htext, List.dropWhile_cons_of_neg (by rw [hblank]; decide)]
  split
  · next heq => exact absurd (List.cons.inj heq).1 hsign.1
  · next heq => exact absurd (List.cons.inj heq).1 hsign.2
  · rw [hdecimal]
    rfl

end Cxx
