import Mtop.Library.Double

/-! Reading a `double`: `std::strtod` in the C locale, with the rounding of exact values to
binary64 that it and the arithmetic operators share. -/
namespace Cxx
set_option autoImplicit false

namespace Double

/-- `q * base ^ exponent`. -/
def scaled (base : ℕ) (q : ℚ≥0) : ℤ → ℚ≥0
  | .ofNat n => q * base ^ n
  | .negSucc n => q / base ^ (n + 1)

/-- The power of two at or below a positive magnitude. -/
def exponentOf (q : ℚ≥0) : ℤ :=
  let estimate : ℤ := Nat.log2 q.num - Nat.log2 q.den
  if scaled 2 1 estimate ≤ q then estimate else estimate - 1

/-- The binary64 value nearest to an exact magnitude, ties to even, overflowing to infinity. -/
def roundMagnitude (negative : Bool) (q : ℚ≥0) : Double :=
  if q = 0 then .finite negative 0
  else
    let lastPlace := max (exponentOf q) (-1022) - 52
    let rounded := scaled 2 (roundHalfEven (scaled 2 q (-lastPlace))) lastPlace
    if scaled 2 1 1024 ≤ rounded then .inf negative else .finite negative rounded

def rounded : Double → Double
  | .finite negative magnitude => roundMagnitude negative magnitude
  | d => d

/-- `+` on doubles. -/
def addRounded (a b : Double) : Double := (a + b).rounded

/-- `*` on doubles. -/
def mulRounded : Double → Double → Double
  | .finite s x, .finite t y => roundMagnitude (s != t) (x * y)
  | .inf s, .inf t => .inf (s != t)
  | .inf s, .finite t y => if y = 0 then .nan else .inf (s != t)
  | .finite s x, .inf t => if x = 0 then .nan else .inf (s != t)
  | _, _ => .nan

/-- `/` on doubles. -/
def divRounded : Double → Double → Double
  | .finite s x, .finite t y =>
    if y = 0 then if x = 0 then .nan else .inf (s != t) else roundMagnitude (s != t) (x / y)
  | .inf s, .finite t _ => .inf (s != t)
  | .finite s _, .inf t => .finite (s != t) 0
  | _, _ => .nan

def neg : Double → Double
  | .finite s x => .finite (!s) x
  | .inf s => .inf (!s)
  | .nan => .nan

end Double

/-! ## `strtod` -/

def isHexDigit (c : Char) : Bool :=
  c.isDigit || ('a' ≤ c && c ≤ 'f') || ('A' ≤ c && c ≤ 'F')

def digitValue (c : Char) : ℕ :=
  if c.isDigit then c.toNat - 48 else c.toLower.toNat - 87

def digitsValue (base : ℕ) (digits : Text) : ℕ :=
  digits.foldl (fun n c => n * base + digitValue c) 0

/-- Digits with an optional point: all the digits, how many of them follow the point, the rest. -/
def scanMantissa (isDigit : Char → Bool) (text : Text) : Text × ℕ × Text :=
  let whole := text.takeWhile isDigit
  match text.dropWhile isDigit with
  | '.' :: rest =>
    let fraction := rest.takeWhile isDigit
    (whole ++ fraction, fraction.length, rest.dropWhile isDigit)
  | rest => (whole, 0, rest)

/-- `[+-]?[0-9]+` after the exponent letter; without digits nothing is consumed. -/
def scanExponent (letter : Char) (text : Text) : ℤ × Text :=
  match text with
  | c :: rest =>
    if c.toLower = letter then
      let (negative, digits) := match rest with
        | '-' :: rest => (true, rest)
        | '+' :: rest => (false, rest)
        | rest => (false, rest)
      let exponent : ℤ := digitsValue 10 (digits.takeWhile Char.isDigit)
      if digits.takeWhile Char.isDigit = [] then (0, text)
      else (if negative then -exponent else exponent, digits.dropWhile Char.isDigit)
    else (0, text)
  | [] => (0, text)

def scanDecimal (text : Text) : Option (Double × Text) :=
  let (digits, places, rest) := scanMantissa Char.isDigit text
  if digits = [] then none
  else
    let (exponent, rest) := scanExponent 'e' rest
    some (Double.roundMagnitude false (Double.scaled 10 (digitsValue 10 digits) (exponent - places)), rest)

/-- After `0x`. -/
def scanHex (text : Text) : Option (Double × Text) :=
  let (digits, places, rest) := scanMantissa isHexDigit text
  if digits = [] then none
  else
    let (exponent, rest) := scanExponent 'p' rest
    some (Double.roundMagnitude false (Double.scaled 2 (digitsValue 16 digits) (exponent - 4 * places)),
      rest)

/-- After `nan`: the `(chars)` part when it is complete. -/
def scanNanTail (text : Text) : Text :=
  match text with
  | '(' :: rest =>
    match rest.dropWhile fun c => c.isAlphanum || c == '_' with
    | ')' :: tail => tail
    | _ => text
  | _ => text

def scanUnsigned (text : Text) : Option (Double × Text) :=
  let lower := lowercase text
  if startsWith lower (str "infinity") then some (.inf false, text.drop 8)
  else if startsWith lower (str "inf") then some (.inf false, text.drop 3)
  else if startsWith lower (str "nan") then some (.nan, scanNanTail (text.drop 3))
  else if startsWith lower (str "0x") then
    (scanHex (text.drop 2)).orElse fun _ => scanDecimal text
  else scanDecimal text

/-- The value and the text at `end`; without a conversion that is the whole text. -/
def strtod (text : Text) : Double × Text :=
  let scanned : Option (Double × Text) := match text.dropWhile isSpace with
    | '-' :: rest => (scanUnsigned rest).map fun scanned => (scanned.1.neg, scanned.2)
    | '+' :: rest => scanUnsigned rest
    | rest => scanUnsigned rest
  scanned.getD (0, text)

end Cxx
