import Mtop.Library.CxxString
import Mathlib.Data.Rat.Defs
import Mathlib.Algebra.Field.Rat

/-! A reader for RFC 8259 texts over bytes: the whole grammar, with white space, escapes, surrogate
pairs and exponents. Fuel bounds the nesting and the length; the length of the text is enough. -/
namespace Rfc8259
open Cxx
set_option autoImplicit false

inductive Json where
  | null
  | bool (value : Bool)
  | num (value : ℚ)
  | str (value : Text)
  | arr (elements : List Json)
  | obj (members : List (Text × Json))
  deriving Inhabited

/-! ## White space and structural characters -/

def isWs (c : Char) : Bool := c = ' ' || c = '\t' || c = '\n' || c = '\r'

def skipWs (t : Text) : Text := t.dropWhile isWs

/-- The text after white space and the character `c`. -/
def expect (c : Char) (t : Text) : Option Text :=
  match skipWs t with
  | d :: rest => if d = c then some rest else none
  | [] => none

/-! ## Numbers -/

def natOf (digits : Text) : ℕ := Nat.ofDigitChars 10 digits 0

/-- One or more digits. -/
def digits (t : Text) : Option (Text × Text) :=
  if t.takeWhile Char.isDigit = [] then none
  else some (t.takeWhile Char.isDigit, t.dropWhile Char.isDigit)

/-- `0`, or digits that do not start with `0`. -/
def integerPart (t : Text) : Option (ℕ × Text) :=
  (digits t).bind fun (d, rest) =>
    if d.head? = some '0' ∧ d ≠ ['0'] then none else some (natOf d, rest)

def fraction : Text → Option (ℚ × Text)
  | '.' :: t => (digits t).map fun (d, rest) => ((natOf d : ℚ) / 10 ^ d.length, rest)
  | t => some (0, t)

def signedDigits : Text → Option (ℤ × Text)
  | '-' :: t => (digits t).map fun (d, rest) => (-(natOf d : ℤ), rest)
  | '+' :: t => (digits t).map fun (d, rest) => ((natOf d : ℤ), rest)
  | t => (digits t).map fun (d, rest) => ((natOf d : ℤ), rest)

def exponent : Text → Option (ℤ × Text)
  | c :: t => if c = 'e' ∨ c = 'E' then signedDigits t else some (0, c :: t)
  | [] => some (0, [])

def magnitude (t : Text) : Option (ℚ × Text) :=
  (integerPart t).bind fun (int, t) =>
    (fraction t).bind fun (frac, t) =>
      (exponent t).map fun (e, t) => (((int : ℚ) + frac) * 10 ^ e, t)

def number : Text → Option (ℚ × Text)
  | '-' :: t => (magnitude t).map fun (q, rest) => (-q, rest)
  | t => magnitude t

/-! ## Strings -/

def shortEscape (c : Char) : Option Char :=
  if c = '"' ∨ c = '\\' ∨ c = '/' then some c
  else if c = 'b' then some '\x08'
  else if c = 'f' then some '\x0c'
  else if c = 'n' then some '\n'
  else if c = 'r' then some '\r'
  else if c = 't' then some '\t'
  else none

def hexValue (c : Char) : Option ℕ :=
  if '0' ≤ c ∧ c ≤ '9' then some (c.toNat - '0'.toNat)
  else if 'a' ≤ c ∧ c ≤ 'f' then some (c.toNat - 'a'.toNat + 10)
  else if 'A' ≤ c ∧ c ≤ 'F' then some (c.toNat - 'A'.toNat + 10)
  else none

/-- The four digits of `\uXXXX`. -/
def hex4 : Text → Option (ℕ × Text)
  | a :: b :: c :: d :: rest =>
    (hexValue a).bind fun a => (hexValue b).bind fun b =>
      (hexValue c).bind fun c => (hexValue d).map fun d =>
        (((a * 16 + b) * 16 + c) * 16 + d, rest)
  | _ => none

/-- The bytes of a code point. -/
def utf8 (n : ℕ) : Text :=
  if n < 0x80 then [Char.ofNat n]
  else if n < 0x800 then [Char.ofNat (0xC0 + n / 64), Char.ofNat (0x80 + n % 64)]
  else if n < 0x10000 then
    [Char.ofNat (0xE0 + n / 4096), Char.ofNat (0x80 + n / 64 % 64), Char.ofNat (0x80 + n % 64)]
  else [Char.ofNat (0xF0 + n / 262144), Char.ofNat (0x80 + n / 4096 % 64),
    Char.ofNat (0x80 + n / 64 % 64), Char.ofNat (0x80 + n % 64)]

/-- The second half of a surrogate pair whose first half was `high`. -/
def lowSurrogate (high : ℕ) : Text → Option (Text × Text)
  | '\\' :: 'u' :: t =>
    (hex4 t).bind fun (low, rest) =>
      if 0xDC00 ≤ low ∧ low < 0xE000 then
        some (utf8 (0x10000 + (high - 0xD800) * 0x400 + (low - 0xDC00)), rest)
      else none
  | _ => none

/-- What stands after a backslash. Lone surrogates are refused. -/
def escaped : Text → Option (Text × Text)
  | 'u' :: t =>
    (hex4 t).bind fun (n, rest) =>
      if n < 0xD800 ∨ 0xE000 ≤ n then some (utf8 n, rest)
      else if n < 0xDC00 then lowSurrogate n rest
      else none
  | c :: t => (shortEscape c).map fun d => ([d], t)
  | [] => none

/-- The rest of a string after its opening quote. -/
def stringBody : ℕ → Text → Option (Text × Text)
  | 0, _ => none
  | _ + 1, [] => none
  | fuel + 1, c :: t =>
    if c = '"' then some ([], t)
    else if c = '\\' then
      (escaped t).bind fun (s, t) => (stringBody fuel t).map fun (s', rest) => (s ++ s', rest)
    else if c.toNat < 0x20 then none
    else (stringBody fuel t).map fun (s, rest) => (c :: s, rest)

/-! ## Values -/

/-- Items separated by commas, up to `close`. -/
def commaList {α : Type} (item : Text → Option (α × Text)) (close : Char) :
    ℕ → Text → Option (List α × Text)
  | 0, _ => none
  | fuel + 1, t =>
    (item t).bind fun (x, t) =>
      match expect ',' t with
      | some t => (commaList item close fuel t).map fun (xs, rest) => (x :: xs, rest)
      | none => (expect close t).map fun rest => ([x], rest)

def bracketed {α : Type} (item : Text → Option (α × Text)) (close : Char) (fuel : ℕ) (t : Text) :
    Option (List α × Text) :=
  match expect close t with
  | some rest => some ([], rest)
  | none => commaList item close fuel t

/-- `"name" : value`. -/
def member (fuel : ℕ) (value : Text → Option (Json × Text)) (t : Text) :
    Option ((Text × Json) × Text) :=
  (expect '"' t).bind fun t => (stringBody fuel t).bind fun (name, t) =>
    (expect ':' t).bind fun t => (value t).map fun (v, rest) => ((name, v), rest)

def literal (word : Text) (v : Json) (t : Text) : Option (Json × Text) :=
  if word <+: t then some (v, t.drop word.length) else none

def value : ℕ → Text → Option (Json × Text)
  | 0, _ => none
  | fuel + 1, t =>
    match skipWs t with
    | [] => none
    | c :: t =>
      if c = '{' then (bracketed (member fuel (value fuel)) '}' fuel t).map fun (ms, rest) => (.obj ms, rest)
      else if c = '[' then (bracketed (value fuel) ']' fuel t).map fun (vs, rest) => (.arr vs, rest)
      else if c = '"' then (stringBody fuel t).map fun (s, rest) => (.str s, rest)
      else if c = 't' then literal (str "rue") (.bool true) t
      else if c = 'f' then literal (str "alse") (.bool false) t
      else if c = 'n' then literal (str "ull") .null t
      else (number (c :: t)).map fun (q, rest) => (.num q, rest)

/-- A JSON text: one value between white space, and nothing after it. -/
def parse (t : Text) : Option Json :=
  (value (t.length + 1) t).bind fun (v, rest) => if skipWs rest = [] then some v else none

/-! ## Objects with distinct keys -/

/-- No object of the tree has a key twice. -/
inductive Json.KeysOnce : Json → Prop where
  | null : KeysOnce .null
  | bool (b : Bool) : KeysOnce (.bool b)
  | num (q : ℚ) : KeysOnce (.num q)
  | str (s : Text) : KeysOnce (.str s)
  | arr {vs : List Json} (h : ∀ v ∈ vs, KeysOnce v) : KeysOnce (.arr vs)
  | obj {ms : List (Text × Json)} (hn : (ms.map Prod.fst).Nodup)
      (h : ∀ m ∈ ms, KeysOnce m.2) : KeysOnce (.obj ms)

end Rfc8259
