import Mtop.Library.CxxString
import Mathlib.Data.NNRat.Floor
import Mathlib.Algebra.Order.Floor.Semiring
import Mathlib.Algebra.BigOperators.Group.List.Basic
import Mathlib.Data.List.Induction
import Mathlib.Tactic.Linarith
import Mathlib.Tactic.NormNum
import Mathlib.Order.WithBot

/-! `double` with exact finite values: every IEEE value is one of these, and so is every exact
intermediate result. Comparisons follow IEEE; sums are exact. -/
namespace Cxx
set_option autoImplicit false

inductive Double where
  | nan
  | inf (negative : Bool)
  | finite (negative : Bool) (magnitude : ℚ≥0)
  deriving DecidableEq

namespace Double

instance : Inhabited Double := ⟨.finite false 0⟩

def ofNat (n : ℕ) : Double := .finite false n

def ofRat (q : ℚ) : Double := .finite (decide (q < 0)) ⟨|q|, abs_nonneg q⟩

/-- A decimal literal such as `0.60`. -/
instance : OfScientific Double where
  ofScientific m s e := .finite false (OfScientific.ofScientific m s e)

instance {n : ℕ} : OfNat Double n := ⟨ofNat n⟩

def isFinite : Double → Bool
  | .finite _ _ => true
  | _ => false

/-- The exact value of a finite double. -/
def value : Double → ℚ
  | .finite negative magnitude => if negative then -magnitude else magnitude
  | _ => 0

theorem value_ofNat (n : ℕ) : (ofNat n).value = n := NNRat.cast_natCast n

/-! ## Comparison -/

def lt : Double → Double → Bool
  | .nan, _ => false
  | _, .nan => false
  | .inf s, .inf t => s && !t
  | .inf s, .finite _ _ => s
  | .finite _ _, .inf t => !t
  | a@(.finite _ _), b@(.finite _ _) => decide (a.value < b.value)

/-- `==` on doubles. -/
def eq : Double → Double → Bool
  | .inf s, .inf t => s == t
  | a@(.finite _ _), b@(.finite _ _) => decide (a.value = b.value)
  | _, _ => false

/-- `<=` on doubles. -/
def le (a b : Double) : Bool := lt a b || eq a b

theorem lt_eq_value {a b : Double} (ha : a.isFinite = true) (hb : b.isFinite = true) :
    lt a b = decide (a.value < b.value) := by
  cases a with
  | finite s x =>
    cases b with
    | finite t y => rfl
    | _ => cases hb
  | _ => cases ha

theorem le_eq_not_lt {a b : Double} (ha : a.isFinite = true) (hb : b.isFinite = true) :
    le a b = !lt b a := by
  rw [le, lt_eq_value ha hb, lt_eq_value hb ha]
  cases a with
  | finite s x =>
    cases b with
    | finite t y =>
      simp only [eq, ← Bool.decide_or, ← decide_not, not_lt, le_iff_lt_or_eq]
    | _ => cases hb
  | _ => cases ha

/-- Where a double stands on the extended number line. -/
def position : Double → WithBot (WithTop ℚ)
  | .nan => ⊥
  | .inf negative => if negative then ⊥ else (⊤ : WithTop ℚ)
  | d@(.finite _ _) => ((d.value : WithTop ℚ) : WithBot (WithTop ℚ))

theorem lt_eq_position {a b : Double} (ha : a ≠ .nan) (hb : b ≠ .nan) :
    lt a b = decide (a.position < b.position) := by
  cases a with
  | nan => exact absurd rfl ha
  | inf s =>
    cases b with
    | nan => exact absurd rfl hb
    | inf t => cases s <;> cases t <;> simp [lt, position]
    | finite t y => cases s <;> simp [lt, position]
  | finite s x =>
    cases b with
    | nan => exact absurd rfl hb
    | inf t =>
      cases t with
      | false => exact (decide_eq_true (WithBot.coe_lt_coe.mpr (WithTop.coe_lt_top _))).symm
      | true => exact (decide_eq_false (not_lt_bot (α := WithBot (WithTop ℚ)))).symm
    | finite t y => simp [lt, position]

/-- `==` holds exactly where neither `<` does. -/
theorem eq_eq_not_lt {a b : Double} (ha : a ≠ .nan) (hb : b ≠ .nan) :
    eq a b = (!lt a b && !lt b a) := by
  cases a with
  | nan => exact absurd rfl ha
  | inf s =>
    cases b with
    | nan => exact absurd rfl hb
    | inf t => cases s <;> cases t <;> rfl
    | finite t y => cases s <;> rfl
  | finite s x =>
    cases b with
    | nan => exact absurd rfl hb
    | inf t => cases t <;> rfl
    | finite t y =>
      simp only [eq, lt, ← decide_not, ← Bool.decide_and, not_lt]
      rw [decide_eq_decide]
      exact ⟨fun h => ⟨h.ge, h.le⟩, fun h => le_antisymm h.2 h.1⟩

/-! ## Exact sums -/

def add : Double → Double → Double
  | .nan, _ => .nan
  | _, .nan => .nan
  | .inf s, .inf t => if s = t then .inf s else .nan
  | .inf s, .finite _ _ => .inf s
  | .finite _ _, .inf t => .inf t
  | a@(.finite s x), b@(.finite t y) =>
    if x = 0 ∧ y = 0 then .finite (s && t) 0 else ofRat (a.value + b.value)

instance : Add Double := ⟨add⟩

theorem value_ofRat (q : ℚ) : (ofRat q).value = q := by
  unfold ofRat value
  by_cases h : q < 0
  · have hq : |q| = -q := abs_of_neg h
    simp only [h, decide_true, ite_true, NNRat.coe_mk, hq, neg_neg]
  · have hq : |q| = q := abs_of_nonneg (not_lt.mp h)
    simp only [h, decide_false, Bool.false_eq_true, ite_false, NNRat.coe_mk, hq]

theorem isFinite_add {a b : Double} (ha : a.isFinite = true) (hb : b.isFinite = true) :
    (a + b).isFinite = true := by
  cases a with
  | finite s x =>
    cases b with
    | finite t y =>
      change (if x = 0 ∧ y = 0 then _ else _ : Double).isFinite = true
      split <;> rfl
    | _ => cases hb
  | _ => cases ha

theorem value_add {a b : Double} (ha : a.isFinite = true) (hb : b.isFinite = true) :
    (a + b).value = a.value + b.value := by
  cases a with
  | finite s x =>
    cases b with
    | finite t y =>
      change (if x = 0 ∧ y = 0 then _ else _ : Double).value = _
      split
      · next h => simp [value, h.1, h.2]
      · exact value_ofRat _
    | _ => cases hb
  | _ => cases ha

/-! ## Rounding and the `%.Nf` text -/

/-- The nearest natural number, ties to even. -/
def roundHalfEven (q : ℚ≥0) : ℕ :=
  let n := ⌊q⌋₊
  if q < n + 1 / 2 then n
  else if n + 1 / 2 < q then n + 1
  else if n % 2 = 0 then n else n + 1

theorem roundHalfEven_near (q : ℚ≥0) : |(roundHalfEven q : ℚ) - q| ≤ 1 / 2 := by
  have hlo : ((⌊q⌋₊ : ℕ) : ℚ) ≤ q := by exact_mod_cast Nat.floor_le q.2
  have hhi : (q : ℚ) < (⌊q⌋₊ : ℕ) + 1 := by exact_mod_cast Nat.lt_floor_add_one q
  have hcast : (((⌊q⌋₊ : ℚ≥0) + 1 / 2 : ℚ≥0) : ℚ) = ((⌊q⌋₊ : ℕ) : ℚ) + 1 / 2 := by push_cast; rfl
  unfold roundHalfEven
  dsimp only
  rw [abs_le]
  split
  · next h =>
    have h' : (q : ℚ) < ((⌊q⌋₊ : ℕ) : ℚ) + 1 / 2 := by rw [← hcast]; exact_mod_cast h
    constructor <;> linarith
  · next h =>
    have h' : ((⌊q⌋₊ : ℕ) : ℚ) + 1 / 2 ≤ q := by rw [← hcast]; exact_mod_cast not_lt.mp h
    split
    · push_cast
      constructor <;> linarith
    · next h2 =>
      have h2' : (q : ℚ) ≤ ((⌊q⌋₊ : ℕ) : ℚ) + 1 / 2 := by rw [← hcast]; exact_mod_cast not_lt.mp h2
      split
      · constructor <;> linarith
      · push_cast
        constructor <;> linarith

/-- The value rounded to `places` decimals, ties to even; zero when not finite. -/
def roundedTo (places : ℕ) : Double → ℚ
  | .finite negative magnitude =>
    let scaled : ℚ := roundHalfEven (magnitude * 10 ^ places) / 10 ^ places
    if negative then -scaled else scaled
  | _ => 0

/-- The last `places` digits of `n`, with leading zeros. -/
def padded : ℕ → ℕ → Text
  | 0, _ => []
  | places + 1, n => padded places (n / 10) ++ [Nat.digitChar (n % 10)]

/-- `std::fixed << std::setprecision(places)`, and `%f` with this precision; the point is printed
before decimals only. -/
def fixedText (places : ℕ) : Double → Text
  | .finite negative magnitude =>
    let n := roundHalfEven (magnitude * 10 ^ places)
    (if negative then ['-'] else []) ++ natText (n / 10 ^ places) ++
      if places = 0 then [] else '.' :: padded places n
  | .inf negative => (if negative then ['-'] else []) ++ str "inf"
  | .nan => str "nan"

end Double
end Cxx
