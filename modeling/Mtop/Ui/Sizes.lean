import Mtop.Library.Decimals
import Mtop.Library.DoubleMean
import Mtop.Platform.IoColumn
import Mtop.Platform.ListedSample
import Mathlib.Data.List.GetD

/-! The texts of sizes and rates (`main.cpp`, `ui_support.cpp`, `darwin_sampler.cpp`): what a reader
makes of two of them is ordered as the sizes are, and off by half of the last digit at most. -/
namespace Mtop
open Cxx
set_option autoImplicit false

/-! ## The formatters -/

/-- The decimals of a number: always one, none, or one below 10; plain bytes have none but in the first
style. -/
inductive SizeStyle where
  | oneDecimal | whole | short

/-- The names of the five units; no two are alike, and none goes on with the number. -/
structure SizeUnits where
  names : List Text
  length_eq : names.length = 5
  nodup : names.Nodup
  ends : ∀ name ∈ names, EndsNumber name

def SizeStyle.numberText (style : SizeStyle) (value : UInt64) (unit : ℕ) (current : Double) : Text :=
  match style with
  | .oneDecimal => Double.fixedText 1 current
  | .whole => if unit = 0 then natText value.toNat else Double.fixedText 0 current
  | .short =>
    if unit = 0 then natText value.toNat
    else if Double.le 10 current then Double.fixedText 0 current
    else Double.fixedText 1 current

def sizeText (units : SizeUnits) (style : SizeStyle) (value : UInt64) : Text :=
  let (unit, current) := scaleUnits 4 0 (Double.ofNat value.toNat).rounded
  style.numberText value unit current ++ units.names.getD unit []

theorem endsNumber_of_head {c : Char} {rest : Text}
    (h : c.isDigit = false ∧ c ≠ '.' ∧ c.toLower ≠ 'e' ∧ c.toLower ≠ 'x') :
    EndsNumber (c :: rest) := by
  intro d hd
  obtain rfl : c = d := Option.some.inj hd
  exact h

/-- The units as one letter each, with the same text behind it. -/
def letterUnits (plain scaled : Text) : List Text :=
  ('B' :: plain) :: ['K', 'M', 'G', 'T'].map (· :: scaled)

theorem letterUnits_ends (plain scaled : Text) : ∀ name ∈ letterUnits plain scaled, EndsNumber name := by
  intro name hname
  simp only [letterUnits, List.map_cons, List.map_nil, List.mem_cons, List.not_mem_nil,
    or_false] at hname
  rcases hname with rfl | rfl | rfl | rfl | rfl <;> exact endsNumber_of_head (by decide)

theorem letterUnits_nodup (plain scaled : Text) : (letterUnits plain scaled).Nodup := by
  simp [letterUnits]

def unitsWith (plain scaled : Text) : SizeUnits where
  names := letterUnits plain scaled
  length_eq := rfl
  nodup := letterUnits_nodup plain scaled
  ends := letterUnits_ends plain scaled

/-- `B`, `KB`, `MB`, `GB`, `TB` -/
def humanBytes (value : UInt64) : Text := sizeText (unitsWith [] ['B']) .oneDecimal value

/-- `B`, `K`, `M`, `G`, `T` -/
def compactBytes (value : UInt64) : Text := sizeText (unitsWith [] []) .whole value

/-- `B`, `Ki`, `Mi`, `Gi`, `Ti` -/
def compactBytesWithDecimal (value : UInt64) : Text := sizeText (unitsWith [] ['i']) .short value

/-- `B/s`, `Ki/s`, `Mi/s`, `Gi/s`, `Ti/s` -/
def compactRate (value : UInt64) : Text :=
  sizeText (unitsWith ['/', 's'] ['i', '/', 's']) .short value

/-- The sampler's own copy for the GPU memory. -/
def compactBinaryBytes (value : UInt64) : Text := sizeText (unitsWith [] ['i']) .short value

def formatThroughputRate (available : Bool) (bytesPerSec : UInt64) : Text :=
  if available then compactRate bytesPerSec else str "n/a"

example : (humanBytes 1536, compactBytes 1536, compactBytesWithDecimal 10752, compactRate 1000) =
    (str "1.5KB", str "2K", str "10Ki", str "1000B/s") := by
  decide +kernel

/-! ## What is shown -/

/-- The size as a `double`. -/
def sizeOf (value : UInt64) : ℚ≥0 := Double.nearest value.toNat

def SizeStyle.places (style : SizeStyle) (unit : ℕ) (current : ℚ≥0) : ℕ :=
  match style with
  | .oneDecimal => 1
  | .whole => 0
  | .short => if unit = 0 ∨ (10 : ℕ) ≤ current then 0 else 1

/-- The number that is shown, in bytes. -/
def shownSize (style : SizeStyle) (size : ℚ≥0) : ℚ≥0 :=
  Double.shown (style.places (ioUnit size) (ioScaled size)) (ioScaled size) *
    (1024 ^ ioUnit size : ℕ)

/-- The value of the last digit, in bytes. -/
def lastDigit (style : SizeStyle) (size : ℚ≥0) : ℚ≥0 :=
  1 / (10 ^ style.places (ioUnit size) (ioScaled size) : ℕ) * (1024 ^ ioUnit size : ℕ)

theorem sizeOf_mono {value value' : UInt64} (h : value ≤ value') : sizeOf value ≤ sizeOf value' := by
  unfold sizeOf
  refine Double.nearest_mono ?_
  exact_mod_cast UInt64.le_iff_toNat_le.mp h

/-- Plain bytes are exact. -/
theorem ioScaled_of_unit_zero {value : UInt64} (h : ioUnit (sizeOf value) = 0) :
    ioScaled (sizeOf value) = value.toNat := by
  have hsmall := (ioUnit_spec (sizeOf value)).2.2.1 (by omega)
  rw [ioScaled_eq, h, pow_zero, div_one] at hsmall ⊢
  have hvalue : value.toNat ≤ 2 ^ 53 := by
    by_contra hlarge
    have hnearest : Double.nearest ((1024 : ℕ) : ℚ≥0) ≤ sizeOf value := by
      refine Double.nearest_mono ?_
      exact_mod_cast (by omega : 1024 ≤ value.toNat)
    rw [Double.nearest_natCast (by norm_num)] at hnearest
    exact absurd hsmall (not_lt.mpr (by exact_mod_cast hnearest))
  exact Double.nearest_natCast hvalue

/-- All styles print the scaled number with their number of decimals. -/
theorem numberText_eq (style : SizeStyle) (value : UInt64) :
    style.numberText value (ioUnit (sizeOf value)) (.finite false (ioScaled (sizeOf value))) =
      Double.fixedText (style.places (ioUnit (sizeOf value)) (ioScaled (sizeOf value)))
        (.finite false (ioScaled (sizeOf value))) := by
  have hplain : ioUnit (sizeOf value) = 0 →
      natText value.toNat = Double.fixedText 0 (.finite false (ioScaled (sizeOf value))) := by
    intro hunit
    rw [ioScaled_of_unit_zero hunit, Double.fixedText_natCast]
  have hten : Double.le 10 (.finite false (ioScaled (sizeOf value))) =
      decide ((10 : ℕ) ≤ ioScaled (sizeOf value)) := by
    refine (le_finite 10 _).trans ?_
    rw [Nat.cast_ofNat]
  cases style with
  | oneDecimal => rfl
  | whole =>
    show (if _ then _ else _) = Double.fixedText 0 _
    split_ifs with hunit
    · exact hplain hunit
    · rfl
  | short =>
    unfold SizeStyle.numberText SizeStyle.places
    dsimp only
    rw [hten]
    by_cases hunit : ioUnit (sizeOf value) = 0
    · rw [if_pos hunit, if_pos (.inl hunit)]
      exact hplain hunit
    · by_cases hlarge : (10 : ℕ) ≤ ioScaled (sizeOf value)
      · rw [if_neg hunit, if_pos (decide_eq_true hlarge), if_pos (.inr hlarge)]
      · rw [if_neg hunit, if_neg (by rwa [decide_eq_true_eq]),
          if_neg fun h => h.elim hunit hlarge]

theorem sizeText_eq (units : SizeUnits) (style : SizeStyle) (value : UInt64) :
    sizeText units style value =
      Double.fixedText (style.places (ioUnit (sizeOf value)) (ioScaled (sizeOf value)))
          (.finite false (ioScaled (sizeOf value))) ++
        units.names.getD (ioUnit (sizeOf value)) [] := by
  unfold sizeText
  rw [rounded_ofNat, ← numberText_eq]
  exact congrArg (fun scaled : ℕ × Double =>
    style.numberText value scaled.1 scaled.2 ++ units.names.getD scaled.1 [])
      (ioUnit_spec (sizeOf value)).1

/-! ## What is read -/

/-- The size that a text says and the value of its last digit, both in bytes. -/
def readSize (units : SizeUnits) (text : Text) : Option (ℚ≥0 × ℚ≥0) :=
  let read := Double.readDecimal text
  let unit := read.2.2
  if units.names.contains unit then
    some (read.1 * (1024 ^ units.names.idxOf unit : ℕ),
      read.2.1 * (1024 ^ units.names.idxOf unit : ℕ))
  else none

theorem readSize_sizeText (units : SizeUnits) (style : SizeStyle) (value : UInt64) :
    readSize units (sizeText units style value) =
      some (shownSize style (sizeOf value), lastDigit style (sizeOf value)) := by
  have hunit : ioUnit (sizeOf value) < units.names.length := by
    rw [units.length_eq]
    exact Nat.lt_succ_of_le (ioUnit_spec (sizeOf value)).2.1
  have hname : units.names.getD (ioUnit (sizeOf value)) [] =
      units.names[ioUnit (sizeOf value)] := List.getD_eq_getElem _ _ hunit
  have hmem := List.getElem_mem hunit
  unfold readSize
  rw [sizeText_eq, hname, Double.readDecimal_fixedText _ _ (units.ends _ hmem)]
  dsimp only
  rw [if_pos (List.contains_iff_mem.mpr hmem), units.nodup.idxOf_getElem _ hunit]
  rfl

/-! ## Order and accuracy -/

/-- Within one unit, decimals are dropped from 10 on only. -/
theorem shown_places_mono (style : SizeStyle) (unit : ℕ) {x y : ℚ≥0} (h : x ≤ y) :
    Double.shown (style.places unit x) x ≤ Double.shown (style.places unit y) y := by
  cases style with
  | oneDecimal => exact Double.shown_mono h
  | whole => exact Double.shown_mono h
  | short =>
    unfold SizeStyle.places
    dsimp only
    by_cases hunit : unit = 0
    · rw [if_pos (.inl hunit), if_pos (.inl hunit)]
      exact Double.shown_mono h
    by_cases hx : (10 : ℕ) ≤ x
    · rw [if_pos (.inr hx), if_pos (.inr (hx.trans h))]
      exact Double.shown_mono h
    by_cases hy : (10 : ℕ) ≤ y
    · exact Double.shown_le_shown (not_le.mp hx).le hy
    · rw [if_neg fun hor => hor.elim hunit hx, if_neg fun hor => hor.elim hunit hy]
      exact Double.shown_mono h

theorem shownSize_mono (style : SizeStyle) {x y : ℚ≥0} (h : x ≤ y) :
    shownSize style x ≤ shownSize style y := by
  unfold shownSize
  have hpow : ∀ unit : ℕ, (0 : ℚ≥0) < (1024 ^ unit : ℕ) := fun unit => by positivity
  rcases (ioUnit_mono h).lt_or_eq with hunit | hunit
  · -- at most 1024 of the smaller unit, at least 1 of the larger one
    have hlast := (ioUnit_spec y).2.1
    have hsmall : ioScaled x ≤ (1024 : ℕ) := by
      exact_mod_cast ((ioUnit_spec x).2.2.1 (by omega)).le
    have hlarge : ((1 : ℕ) : ℚ≥0) ≤ ioScaled y := by
      exact_mod_cast (ioUnit_spec y).2.2.2 (by omega)
    calc _ ≤ ((1024 : ℕ) : ℚ≥0) * (1024 ^ ioUnit x : ℕ) :=
          mul_le_mul_of_nonneg_right (Double.shown_le_natCast hsmall) (hpow _).le
      _ = (1024 ^ (ioUnit x + 1) : ℕ) := by rw [← Nat.cast_mul, pow_succ']
      _ ≤ (1024 ^ ioUnit y : ℕ) := by exact_mod_cast Nat.pow_le_pow_right (by norm_num) hunit
      _ ≤ _ := le_mul_of_one_le_left (hpow _).le
          (by exact_mod_cast Double.natCast_le_shown hlarge)
  · have hscaled : ioScaled x ≤ ioScaled y := by
      rw [ioScaled_eq, ioScaled_eq, hunit]
      exact div_le_div_of_nonneg_right h (by positivity)
    rw [hunit]
    exact mul_le_mul_of_nonneg_right (shown_places_mono style _ hscaled) (hpow _).le

theorem shownSize_near (style : SizeStyle) (size : ℚ≥0) :
    |(shownSize style size : ℚ) - size| ≤ lastDigit style size / 2 := by
  have hpow : (0 : ℚ) < (1024 ^ ioUnit size : ℕ) := by positivity
  have hnear := Double.shown_near (style.places (ioUnit size) (ioScaled size)) (ioScaled size)
  have hsize : (size : ℚ) = ioScaled size * (1024 ^ ioUnit size : ℕ) := by
    have hmul := congrArg (fun q : ℚ≥0 => (q : ℚ)) (scaled_mul size)
    push_cast at hmul ⊢
    exact hmul.symm
  have hshown : (shownSize style size : ℚ) - size =
      ((Double.shown (style.places (ioUnit size) (ioScaled size)) (ioScaled size) : ℚ) -
        ioScaled size) * (1024 ^ ioUnit size : ℕ) := by
    rw [sub_mul, ← hsize]
    unfold shownSize
    push_cast
    rfl
  rw [hshown, abs_mul, abs_of_pos hpow]
  calc _ ≤ 1 / 2 / (10 ^ style.places (ioUnit size) (ioScaled size) : ℕ) *
        ((1024 ^ ioUnit size : ℕ) : ℚ) := mul_le_mul_of_nonneg_right hnear hpow.le
    _ = _ := by
      unfold lastDigit
      push_cast
      ring

/-- For every set of units and every style: of two sizes the larger one never reads as the smaller,
and each reads as its `double` up to half of the last digit that is shown. -/
theorem sizes_read_back (units : SizeUnits) (style : SizeStyle) {value value' : UInt64}
    (h : value ≤ value') :
    ∃ read last read' last', readSize units (sizeText units style value) = some (read, last) ∧
      readSize units (sizeText units style value') = some (read', last') ∧ read ≤ read' ∧
      |(read : ℚ) - sizeOf value| ≤ last / 2 ∧ |(read' : ℚ) - sizeOf value'| ≤ last' / 2 :=
  ⟨_, _, _, _, readSize_sizeText units style value, readSize_sizeText units style value',
    shownSize_mono style (sizeOf_mono h), shownSize_near style _, shownSize_near style _⟩

/-- Just below the next unit, the text still shows the smaller one. -/
theorem sizes_read_back_edge :
    ∃ read last read' last',
      readSize (unitsWith [] ['B']) (humanBytes 1048575) = some (read, last) ∧
      readSize (unitsWith [] ['B']) (humanBytes 1048576) = some (read', last') ∧ read ≤ read' ∧
      |(read : ℚ) - sizeOf 1048575| ≤ last / 2 ∧ |(read' : ℚ) - sizeOf 1048576| ≤ last' / 2 :=
  sizes_read_back (unitsWith [] ['B']) .oneDecimal (by decide)

end Mtop
