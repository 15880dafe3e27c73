import Mtop.Library.Json
import Mtop.Library.Double

/-! Decimal texts as JSON numbers: integers, and fixed-point texts with a given number of decimals,
read back as the value they print. -/
namespace Rfc8259
open Cxx
set_option autoImplicit false

/-! ## What may follow a value -/

def Follows (rest : Text) : Prop := ∀ c ∈ rest.head?, c = ',' ∨ c = ']' ∨ c = '}'

theorem follows_nil : Follows [] := fun _ h => by cases h

theorem follows_comma (rest : Text) : Follows (',' :: rest) := fun _ h => by
  cases h
  exact .inl rfl

theorem follows_close {close : Char} (h : close = ']' ∨ close = '}') (rest : Text) :
    Follows (close :: rest) := fun _ hc => by
  cases hc
  exact .inr h

/-- Nothing that may follow a value continues a number. -/
theorem Follows.head_ne {rest : Text} (h : Follows rest) :
    ∀ c ∈ rest.head?, c.isDigit = false ∧ c ≠ '.' ∧ c ≠ 'e' ∧ c ≠ 'E' := by
  intro c hc
  rcases h c hc with rfl | rfl | rfl <;> decide

theorem skipWs_cons {c : Char} {t : Text} (h : isWs c = false) : skipWs (c :: t) = c :: t := by
  simp [skipWs, h]

theorem expect_cons {c d : Char} {t : Text} (h : isWs d = false) :
    expect c (d :: t) = if d = c then some t else none := by
  rw [expect, skipWs_cons h]

/-! ## Numbers -/

theorem digits_append {d rest : Text} (hd : ∀ c ∈ d, c.isDigit = true) (hne : d ≠ [])
    (hr : ∀ c ∈ rest.head?, c.isDigit = false) : digits (d ++ rest) = some (d, rest) := by
  have htake : rest.takeWhile Char.isDigit = [] ∧ rest.dropWhile Char.isDigit = rest := by
    cases rest with
    | nil => exact ⟨rfl, rfl⟩
    | cons c t =>
      have hc := hr c rfl
      exact ⟨List.takeWhile_cons_of_neg (by simp [hc]), List.dropWhile_cons_of_neg (by simp [hc])⟩
  rw [digits, List.takeWhile_append_of_pos hd, List.dropWhile_append_of_pos hd, htake.1, htake.2,
    List.append_nil, if_neg hne]

/-- No decimal text but `0` starts with `0`. -/
theorem natText_head (n : ℕ) : (natText n).head? = some '0' → natText n = ['0'] := by
  induction n using Nat.strongRecOn with
  | ind n ih =>
    intro h
    by_cases hn : n < 10
    · have ht : natText n = [n.digitChar] := Nat.toDigits_of_lt_base hn
      rw [ht] at h ⊢
      rw [Option.some.inj h]
    · have ht : natText n = natText (n / 10) ++ [(n % 10).digitChar] :=
        Nat.toDigits_of_base_le (by omega) (by omega)
      rw [ht, List.head?_append_of_ne_nil _ (natText_ne_nil _)] at h
      have hzero : natText (n / 10) = natText 0 := (ih (n / 10) (by omega) h).trans rfl
      have := natText_injective hzero
      omega

theorem integerPart_natText (n : ℕ) {rest : Text} (hr : ∀ c ∈ rest.head?, c.isDigit = false) :
    integerPart (natText n ++ rest) = some (n, rest) := by
  have hzero : ¬ ((natText n).head? = some '0' ∧ natText n ≠ ['0']) := fun h =>
    h.2 (natText_head n h.1)
  rw [integerPart, digits_append (natText_isDigit n) (natText_ne_nil n) hr, Option.bind_some]
  dsimp only
  rw [if_neg hzero, natOf, natText, Nat.ofDigitChars_ten_toDigits]

theorem exponent_follows {rest : Text} (h : Follows rest) : exponent rest = some (0, rest) := by
  cases rest with
  | nil => rfl
  | cons c t =>
    have hc := h.head_ne c rfl
    rw [exponent, if_neg (by simp [hc])]

theorem fraction_follows {rest : Text} (h : Follows rest) : fraction rest = some (0, rest) := by
  cases rest with
  | nil => rfl
  | cons c t =>
    have hc := (h.head_ne c rfl).2.1
    unfold fraction
    split
    · next heq => exact absurd (List.cons.inj heq).1 hc
    · rfl

theorem magnitude_natText (n : ℕ) {rest : Text} (h : Follows rest) :
    magnitude (natText n ++ rest) = some ((n : ℚ), rest) := by
  rw [magnitude, integerPart_natText n fun c hc => (h.head_ne c hc).1, Option.bind_some]
  dsimp only
  rw [fraction_follows h, Option.bind_some]
  dsimp only
  rw [exponent_follows h, Option.map_some]
  simp

/-- An integer, a point and decimals. -/
theorem magnitude_decimal (n : ℕ) {d rest : Text} (hd : ∀ c ∈ d, c.isDigit = true) (hne : d ≠ [])
    (h : Follows rest) : magnitude (natText n ++ '.' :: (d ++ rest)) =
      some (n + (natOf d : ℚ) / 10 ^ d.length, rest) := by
  rw [magnitude, integerPart_natText n (by simp), Option.bind_some]
  dsimp only
  rw [fraction, digits_append hd hne fun c hc => (h.head_ne c hc).1, Option.map_some,
    Option.bind_some]
  dsimp only
  rw [exponent_follows h, Option.map_some]
  simp

theorem number_of_magnitude {t : Text} (h : t.head? ≠ some '-') : number t = magnitude t := by
  unfold number
  split
  · exact absurd rfl h
  · rfl

/-- A number starts with a minus sign or a digit. -/
theorem number_starts {t rest : Text} {q : ℚ} (h : number t = some (q, rest)) :
    ∃ c u, t = c :: u ∧ (c = '-' ∨ c.isDigit = true) := by
  cases t with
  | nil => cases h
  | cons c u =>
    refine ⟨c, u, rfl, ?_⟩
    by_contra hc
    push Not at hc
    rw [number_of_magnitude (by simpa using hc.1)] at h
    simp [magnitude, integerPart, digits, hc.2] at h

/-! ## The characters of a number -/

def isNumberChar (c : Char) : Bool :=
  c.isDigit || c = '-' || c = '+' || c = '.' || c = 'e' || c = 'E'

theorem isNumberChar_range {c : Char} (h : isNumberChar c = true) :
    0x20 ≤ c.toNat ∧ c.toNat < 0x80 := by
  unfold isNumberChar at h
  simp only [Bool.or_eq_true, decide_eq_true_eq] at h
  rcases h with ((((hdigit | rfl) | rfl) | rfl) | rfl) | rfl
  · have := toNat_of_isDigit hdigit
    omega
  all_goals decide

/-- `rest` is what is left of `t` behind characters of a number. -/
def Consumes (t rest : Text) : Prop :=
  ∃ used, t = used ++ rest ∧ ∀ c ∈ used, isNumberChar c = true

theorem Consumes.refl (t : Text) : Consumes t t := ⟨[], rfl, fun _ h => absurd h List.not_mem_nil⟩

theorem Consumes.trans {t u v : Text} (h : Consumes t u) (h' : Consumes u v) : Consumes t v := by
  obtain ⟨used, rfl, hused⟩ := h
  obtain ⟨used', rfl, hused'⟩ := h'
  refine ⟨used ++ used', (List.append_assoc ..).symm, fun c hc => ?_⟩
  exact (List.mem_append.mp hc).elim (hused c) (hused' c)

theorem Consumes.cons {c : Char} {t rest : Text} (hc : isNumberChar c = true)
    (h : Consumes t rest) : Consumes (c :: t) rest :=
  Consumes.trans ⟨[c], rfl, fun _ h => List.mem_singleton.mp h ▸ hc⟩ h

theorem digits_consumes {t d rest : Text} (h : digits t = some (d, rest)) : Consumes t rest := by
  unfold digits at h
  split at h
  · cases h
  · cases h
    refine ⟨t.takeWhile Char.isDigit, (List.takeWhile_append_dropWhile).symm, fun c hc => ?_⟩
    have hdigit := List.all_eq_true.mp (List.all_takeWhile (p := Char.isDigit) (l := t)) c hc
    simp [isNumberChar, hdigit]

theorem integerPart_consumes {t rest : Text} {n : ℕ} (h : integerPart t = some (n, rest)) :
    Consumes t rest := by
  unfold integerPart at h
  obtain ⟨⟨d, rest'⟩, hdigits, h⟩ := Option.bind_eq_some_iff.mp h
  dsimp only at h
  split at h
  · cases h
  · cases h
    exact digits_consumes hdigits

theorem fraction_consumes {t rest : Text} {q : ℚ} (h : fraction t = some (q, rest)) :
    Consumes t rest := by
  unfold fraction at h
  split at h
  · obtain ⟨⟨d, rest'⟩, hdigits, heq⟩ := Option.map_eq_some_iff.mp h
    cases heq
    exact (digits_consumes hdigits).cons rfl
  · cases h
    exact .refl _

theorem signedDigits_consumes {t rest : Text} {n : ℤ} (h : signedDigits t = some (n, rest)) :
    Consumes t rest := by
  unfold signedDigits at h
  split at h
  · obtain ⟨⟨d, rest'⟩, hdigits, heq⟩ := Option.map_eq_some_iff.mp h
    cases heq
    exact (digits_consumes hdigits).cons rfl
  · obtain ⟨⟨d, rest'⟩, hdigits, heq⟩ := Option.map_eq_some_iff.mp h
    cases heq
    exact (digits_consumes hdigits).cons rfl
  · obtain ⟨⟨d, rest'⟩, hdigits, heq⟩ := Option.map_eq_some_iff.mp h
    cases heq
    exact digits_consumes hdigits

theorem exponent_consumes {t rest : Text} {n : ℤ} (h : exponent t = some (n, rest)) :
    Consumes t rest := by
  unfold exponent at h
  split at h
  · split at h
    · rename_i he
      refine (signedDigits_consumes h).cons ?_
      rcases he with rfl | rfl <;> rfl
    · cases h
      exact .refl _
  · cases h
    exact .refl _

theorem magnitude_consumes {t rest : Text} {q : ℚ} (h : magnitude t = some (q, rest)) :
    Consumes t rest := by
  unfold magnitude at h
  obtain ⟨⟨n, t1⟩, hint, h⟩ := Option.bind_eq_some_iff.mp h
  obtain ⟨⟨f, t2⟩, hfrac, h⟩ := Option.bind_eq_some_iff.mp h
  obtain ⟨⟨e, t3⟩, hexp, heq⟩ := Option.map_eq_some_iff.mp h
  cases heq
  exact ((integerPart_consumes hint).trans (fraction_consumes hfrac)).trans (exponent_consumes hexp)

theorem number_consumes {t rest : Text} {q : ℚ} (h : number t = some (q, rest)) :
    Consumes t rest := by
  unfold number at h
  split at h
  · obtain ⟨⟨m, rest'⟩, hmagnitude, heq⟩ := Option.map_eq_some_iff.mp h
    cases heq
    exact (magnitude_consumes hmagnitude).cons rfl
  · exact magnitude_consumes h

/-! ## Number texts -/

/-- A number with its text. -/
structure NumberToken where
  text : Text
  value : ℚ
  reads : ∀ rest, Follows rest → number (text ++ rest) = some (value, rest)
  oneLine : '\n' ∉ text

/-- A token has no other characters than those of numbers. -/
theorem NumberToken.text_chars (n : NumberToken) : ∀ c ∈ n.text, isNumberChar c = true := by
  obtain ⟨used, htext, hused⟩ := number_consumes (n.reads [] follows_nil)
  rw [List.append_nil, List.append_nil] at htext
  exact htext ▸ hused

theorem natText_head_ne_minus (n : ℕ) (t : Text) : (natText n ++ t).head? ≠ some '-' := by
  rw [List.head?_append_of_ne_nil _ (natText_ne_nil n)]
  exact fun h => minus_notMem_natText n (List.mem_of_mem_head? h)

theorem newline_notMem_natText (n : ℕ) : '\n' ∉ natText n :=
  fun h => absurd (natText_isDigit n _ h) (by decide)

def natToken (n : ℕ) : NumberToken where
  text := natText n
  value := n
  reads rest hr := by
    rw [number_of_magnitude (natText_head_ne_minus n rest), magnitude_natText n hr]
  oneLine := newline_notMem_natText n

def intToken (n : ℤ) : NumberToken where
  text := intText n
  value := n
  reads rest hr := by
    unfold intText
    split
    · next h =>
      rw [List.cons_append, number, magnitude_natText _ hr, Option.map_some]
      have hcast : ((n.natAbs : ℕ) : ℚ) = -(n : ℚ) := by
        rw [← Int.cast_natCast, Int.ofNat_natAbs_of_nonpos h.le, Int.cast_neg]
      rw [hcast]
      dsimp only
      rw [neg_neg]
    · next h =>
      rw [number_of_magnitude (natText_head_ne_minus _ rest), magnitude_natText _ hr]
      have hcast : ((n.natAbs : ℕ) : ℚ) = n := by
        rw [← Int.cast_natCast, Int.natAbs_of_nonneg (not_lt.mp h)]
      rw [hcast]
  oneLine := by
    unfold intText
    split
    · exact List.not_mem_cons_of_ne_of_not_mem (by decide) (newline_notMem_natText _)
    · exact newline_notMem_natText _

theorem padded_isDigit (places n : ℕ) : ∀ c ∈ Double.padded places n, c.isDigit = true := by
  induction places generalizing n with
  | zero => simp [Double.padded]
  | succ places ih =>
    intro c hc
    rcases List.mem_append.mp hc with hc | hc
    · exact ih _ c hc
    · rw [List.mem_singleton.mp hc, Nat.isDigit_digitChar]
      exact decide_eq_true (Nat.mod_lt _ (by omega))

@[simp] theorem padded_length (places n : ℕ) : (Double.padded places n).length = places := by
  induction places generalizing n with
  | zero => rfl
  | succ places ih => simp [Double.padded, ih]

theorem natOf_padded (places n : ℕ) : natOf (Double.padded places n) = n % 10 ^ places := by
  induction places generalizing n with
  | zero => simp [Double.padded, natOf, Nat.mod_one]
  | succ places ih =>
    have hlast : n % 10 < 10 := Nat.mod_lt _ (by omega)
    have hprefix := ih (n / 10)
    rw [natOf] at hprefix
    rw [Double.padded, natOf, Nat.ofDigitChars_append, hprefix,
      Nat.ofDigitChars_cons_digitChar_of_lt_ten hlast, Nat.ofDigitChars_nil, Nat.pow_succ',
      Nat.mod_mul]
    omega

/-- The text of a fixed-point magnitude reads as that many units of the last place. -/
theorem magnitude_fixed (places n : ℕ) (hp : places ≠ 0) {rest : Text} (hr : Follows rest) :
    magnitude (natText (n / 10 ^ places) ++ '.' :: (Double.padded places n ++ rest)) =
      some ((n : ℚ) / 10 ^ places, rest) := by
  have hne : Double.padded places n ≠ [] := fun h => hp (by rw [← padded_length places n, h]; rfl)
  rw [magnitude_decimal _ (padded_isDigit places n) hne hr, natOf_padded, padded_length]
  have hpos : (10 : ℚ) ^ places ≠ 0 := by positivity
  have hsplit : (n : ℚ) = 10 ^ places * (n / 10 ^ places : ℕ) + (n % 10 ^ places : ℕ) := by
    exact_mod_cast (Nat.div_add_mod n (10 ^ places)).symm
  congr 2
  rw [eq_div_iff hpos, add_mul, div_mul_cancel₀ _ hpos, mul_comm]
  exact hsplit.symm

theorem number_fixedText (places : ℕ) (hp : places ≠ 0) {d : Double} (hd : d.isFinite = true)
    {rest : Text} (hr : Follows rest) :
    number (d.fixedText places ++ rest) = some (d.roundedTo places, rest) := by
  cases d with
  | finite negative magnitude' =>
    have hm := magnitude_fixed places (Double.roundHalfEven (magnitude' * 10 ^ places)) hp hr
    cases negative with
    | true =>
      have ht : (Double.finite true magnitude').fixedText places ++ rest =
          '-' :: (natText (Double.roundHalfEven (magnitude' * 10 ^ places) / 10 ^ places) ++
            '.' :: (Double.padded places (Double.roundHalfEven (magnitude' * 10 ^ places)) ++ rest)) := by
        simp [Double.fixedText, hp]
      rw [ht, number, hm]
      rfl
    | false =>
      have ht : (Double.finite false magnitude').fixedText places ++ rest =
          natText (Double.roundHalfEven (magnitude' * 10 ^ places) / 10 ^ places) ++
            '.' :: (Double.padded places (Double.roundHalfEven (magnitude' * 10 ^ places)) ++ rest) := by
        simp [Double.fixedText, hp]
      rw [ht, number_of_magnitude (natText_head_ne_minus _ _), hm]
      rfl
  | _ => cases hd

theorem newline_notMem_fixedText (places : ℕ) (d : Double) (hd : d.isFinite = true) :
    '\n' ∉ d.fixedText places := by
  cases d with
  | finite negative magnitude' =>
    intro h
    rw [Double.fixedText, List.mem_append, List.mem_append] at h
    rcases h with (h | h) | h
    · cases negative <;> simp at h
    · exact newline_notMem_natText _ h
    · split at h
      · exact absurd h List.not_mem_nil
      · rcases List.mem_cons.mp h with h | h
        · exact absurd h (by decide)
        · exact absurd (padded_isDigit _ _ _ h) (by decide)
  | _ => cases hd

end Rfc8259
