import Mtop.Library.DoubleText

/-! `strtod` and the operators of `double` with the rounding left open. With the rounding to binary64
they are those of the machine; with none they take every value as it is written. -/
namespace Cxx
set_option autoImplicit false

/-- The value itself. -/
def unrounded (negative : Bool) (magnitude : ℚ≥0) : Double := .finite negative magnitude

section With
variable (round : Bool → ℚ≥0 → Double)

/-! ## Operators -/

namespace Double

def roundedWith : Double → Double
  | .finite negative magnitude => round negative magnitude
  | d => d

def addWith (a b : Double) : Double := (a + b).roundedWith round

def mulWith : Double → Double → Double
  | .finite s x, .finite t y => round (s != t) (x * y)
  | .inf s, .inf t => .inf (s != t)
  | .inf s, .finite t y => if y = 0 then .nan else .inf (s != t)
  | .finite s x, .inf t => if x = 0 then .nan else .inf (s != t)
  | _, _ => .nan

def divWith : Double → Double → Double
  | .finite s x, .finite t y =>
    if y = 0 then if x = 0 then .nan else .inf (s != t) else round (s != t) (x / y)
  | .inf s, .finite t _ => .inf (s != t)
  | .finite s _, .inf t => .finite (s != t) 0
  | _, _ => .nan

end Double

/-! ## `strtod` -/

def scanDecimalWith (text : Text) : Option (Double × Text) :=
  let (digits, places, rest) := scanMantissa Char.isDigit text
  if digits = [] then none
  else
    let (exponent, rest) := scanExponent 'e' rest
    some (round false (Double.scaled 10 (digitsValue 10 digits) (exponent - places)), rest)

def scanHexWith (text : Text) : Option (Double × Text) :=
  let (digits, places, rest) := scanMantissa isHexDigit text
  if digits = [] then none
  else
    let (exponent, rest) := scanExponent 'p' rest
    some (round false (Double.scaled 2 (digitsValue 16 digits) (exponent - 4 * places)), rest)

def scanUnsignedWith (text : Text) : Option (Double × Text) :=
  let lower := lowercase text
  if startsWith lower (str "infinity") then some (.inf false, text.drop 8)
  else if startsWith lower (str "inf") then some (.inf false, text.drop 3)
  else if startsWith lower (str "nan") then some (.nan, scanNanTail (text.drop 3))
  else if startsWith lower (str "0x") then
    (scanHexWith round (text.drop 2)).orElse fun _ => scanDecimalWith round text
  else scanDecimalWith round text

def strtodWith (text : Text) : Double × Text :=
  let scanned : Option (Double × Text) := match text.dropWhile isSpace with
    | '-' :: rest => (scanUnsignedWith round rest).map fun scanned => (scanned.1.neg, scanned.2)
    | '+' :: rest => scanUnsignedWith round rest
    | rest => scanUnsignedWith round rest
  scanned.getD (0, text)

end With

/-! ## The two roundings -/

theorem addWith_roundMagnitude : Double.addWith Double.roundMagnitude = Double.addRounded := by
  funext a b
  unfold Double.addWith Double.addRounded
  cases a + b <;> rfl

theorem mulWith_roundMagnitude : Double.mulWith Double.roundMagnitude = Double.mulRounded := by
  funext a b
  cases a <;> cases b <;> rfl

theorem divWith_roundMagnitude : Double.divWith Double.roundMagnitude = Double.divRounded := by
  funext a b
  cases a <;> cases b <;> rfl

theorem strtodWith_roundMagnitude : strtodWith Double.roundMagnitude = strtod := rfl

theorem addWith_unrounded (a b : Double) : Double.addWith unrounded a b = a + b := by
  unfold Double.addWith
  cases a + b <;> rfl

namespace Double

variable {a b : Double}

theorem value_mulWith_unrounded (ha : a.isFinite = true) (hb : b.isFinite = true) :
    (mulWith unrounded a b).isFinite = true ∧ (mulWith unrounded a b).value = a.value * b.value := by
  cases a with
  | finite s x =>
    cases b with
    | finite t y =>
      refine ⟨rfl, ?_⟩
      cases s <;> cases t <;> simp [mulWith, unrounded, value]
    | _ => cases hb
  | _ => cases ha

theorem value_divWith_unrounded (ha : a.isFinite = true) (hb : b.isFinite = true)
    (hne : b.value ≠ 0) :
    (divWith unrounded a b).isFinite = true ∧ (divWith unrounded a b).value = a.value / b.value := by
  cases a with
  | finite s x =>
    cases b with
    | finite t y =>
      have hy : y ≠ 0 := by
        rintro rfl
        exact hne (by cases t <;> simp [value])
      have hdiv : divWith unrounded (.finite s x) (.finite t y) = .finite (s != t) (x / y) :=
        if_neg hy
      rw [hdiv]
      refine ⟨rfl, ?_⟩
      cases s <;> cases t <;> simp [value, neg_div, div_neg]
    | _ => cases hb
  | _ => cases ha

end Double
end Cxx
