import Mtop.Library.CxxString

/-! `int` helpers: `std::clamp`, `std::atoi`, and indexing a vector by an int. -/
namespace Cxx
set_option autoImplicit false

def clamp (value low high : ℤ) : ℤ :=
  if value < low then low else if high < value then high else value

theorem clamp_mem {low high : ℤ} (h : low ≤ high) (value : ℤ) :
    low ≤ clamp value low high ∧ clamp value low high ≤ high := by
  unfold clamp
  split
  · omega
  · split <;> omega

theorem clamp_eq_self {value low high : ℤ} (hlow : low ≤ value) (hhigh : value ≤ high) :
    clamp value low high = value := by
  unfold clamp
  rw [if_neg (by omega), if_neg (by omega)]

/-- A `long` cut to 32 bits. -/
def toInt32 (n : ℤ) : ℤ := (n + 2 ^ 31) % 2 ^ 32 - 2 ^ 31

/-- `strtol` in base 10, saturating at 64 bits; 0 without digits. -/
def strtol (text : Text) : ℤ :=
  let (negative, rest) := match text.dropWhile isSpace with
    | '-' :: rest => (true, rest)
    | '+' :: rest => (false, rest)
    | rest => (false, rest)
  let digits := rest.takeWhile Char.isDigit
  let magnitude : ℤ := digits.foldl (fun n c => n * 10 + (c.toNat - 48 : ℕ)) 0
  clamp (if negative then -magnitude else magnitude) (-2 ^ 63) (2 ^ 63 - 1)

def atoi (text : Text) : ℤ := toInt32 (strtol text)

/-- The text where `strtol` stops reading; nothing without digits. -/
def strtolEnd (text : Text) : Option Text :=
  let rest := match text.dropWhile isSpace with
    | '-' :: rest => rest
    | '+' :: rest => rest
    | rest => rest
  if (rest.takeWhile Char.isDigit).isEmpty then none else some (rest.dropWhile Char.isDigit)

/-! ## Reading a number back -/

theorem toInt32_eq_self {n : ℤ} (hlow : -2 ^ 31 ≤ n) (hhigh : n < 2 ^ 31) : toInt32 n = n := by
  unfold toInt32
  omega

theorem foldl_digits (digits : Text) (start : ℕ) :
    digits.foldl (fun (n : ℤ) c => n * 10 + (c.toNat - 48 : ℕ)) start =
      Nat.ofDigitChars 10 digits start := by
  induction digits generalizing start with
  | nil => rfl
  | cons c digits ih =>
    have hstep : (start : ℤ) * 10 + (c.toNat - 48 : ℕ) = (10 * start + (c.toNat - 48) : ℕ) := by
      push_cast
      ring
    rw [List.foldl_cons, Nat.ofDigitChars_cons, hstep]
    exact ih _

section Number
variable (n : ℕ) {rest : Text} (hrest : ∀ c ∈ rest.head?, c.isDigit = false)

/-- In front of a number there is neither a blank nor a sign. -/
theorem natText_start (rest : Text) : ∃ c others, natText n ++ rest = c :: others ∧
    (natText n ++ rest).dropWhile isSpace = c :: others ∧ c ≠ '-' ∧ c ≠ '+' := by
  obtain ⟨c, digits, hcons, hc⟩ := natText_cons n
  have hspace : ¬ isSpace c = true := by simp [isSpace_of_isDigit hc]
  refine ⟨c, digits ++ rest, by rw [hcons, List.cons_append], ?_, ?_, ?_⟩
  · rw [hcons, List.cons_append, List.dropWhile_cons_of_neg hspace]
  · rintro rfl
    cases hc
  · rintro rfl
    cases hc

include hrest

theorem strtol_natText (hn : n < 2 ^ 63) : strtol (natText n ++ rest) = n := by
  obtain ⟨c, others, htext, hdrop, hminus, hplus⟩ := natText_start n rest
  have hvalue := foldl_digits (natText n) 0
  have hdigits : Nat.ofDigitChars 10 (natText n) 0 = n := Nat.ofDigitChars_ten_toDigits
  rw [hdigits] at hvalue
  unfold strtol
  rw [hdrop]
  split
  rename_i negative digits hsign
  obtain ⟨rfl, rfl⟩ : false = negative ∧ c :: others = digits := by
    split at hsign
    · rename_i h
      exact absurd (List.cons.inj h).1 hminus
    · rename_i h
      exact absurd (List.cons.inj h).1 hplus
    · exact Prod.mk.inj hsign
  dsimp only
  rw [← htext, (takeWhile_digits (natText_isDigit n) hrest).1, if_neg Bool.false_ne_true]
  exact (congrArg (clamp · (-2 ^ 63) (2 ^ 63 - 1)) hvalue).trans
    (clamp_eq_self (by omega) (by omega))

theorem atoi_natText (hn : n < 2 ^ 31) : atoi (natText n ++ rest) = n := by
  rw [atoi, strtol_natText n hrest (by omega), toInt32_eq_self (by omega) (by omega)]

theorem strtolEnd_natText : strtolEnd (natText n ++ rest) = some rest := by
  obtain ⟨c, others, htext, hdrop, hminus, hplus⟩ := natText_start n rest
  obtain ⟨htake, hleft⟩ := takeWhile_digits (natText_isDigit n) hrest
  unfold strtolEnd
  rw [hdrop]
  split
  · rename_i h
    exact absurd (List.cons.inj h).1 hminus
  · rename_i h
    exact absurd (List.cons.inj h).1 hplus
  · dsimp only
    rw [← htext, htake, hleft, if_neg (by simp [natText_ne_nil])]

end Number

/-! ## Indexing -/

variable {α β : Type}

/-- `rows[index]`; nothing outside the vector. -/
def rowAt (rows : List α) (index : ℤ) : Option α :=
  if 0 ≤ index then rows[index.toNat]? else none

theorem rowAt_natCast (rows : List α) (n : ℕ) : rowAt rows n = rows[n]? := by
  unfold rowAt
  rw [if_pos (by omega), Int.toNat_natCast]

theorem rowAt_eq_none_iff {rows : List α} {index : ℤ} :
    rowAt rows index = none ↔ index < 0 ∨ (rows.length : ℤ) ≤ index := by
  unfold rowAt
  split
  · rw [List.getElem?_eq_none_iff]
    omega
  · simp only [true_iff]
    omega

end Cxx
