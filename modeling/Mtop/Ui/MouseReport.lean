import Mathlib.Data.List.TakeWhile
import Mtop.Ui.InputStream

/-! A mouse report in the SGR encoding is decoded to the click that it encodes, and nothing behind it
is read. -/
namespace Mtop
open Cxx
set_option autoImplicit false

/-! ## Reading up to the final letter -/

theorem readUntil_final {final : ℤ → Bool} {guard : ℕ} {before after : List ℤ} {last : ℤ}
    (hguard : before.length < guard) (herr : err ∉ before)
    (hinner : ∀ next ∈ before, final next = false) (hlast : last ≠ err) (hfinal : final last = true) :
    readUntil final guard (before ++ last :: after) = (before, some last, after) := by
  induction before generalizing guard with
  | nil =>
    cases guard with
    | zero => exact absurd hguard (Nat.not_lt_zero _)
    | succ guard =>
      unfold readUntil readKey
      dsimp only [List.nil_append]
      rw [if_neg hlast, if_pos hfinal]
  | cons next before ih =>
    cases guard with
    | zero => exact absurd hguard (Nat.not_lt_zero _)
    | succ guard =>
      rw [List.mem_cons, not_or] at herr
      have hrest := ih (Nat.lt_of_succ_lt_succ hguard) herr.2 fun other hother =>
        hinner other (List.mem_cons_of_mem next hother)
      unfold readUntil readKey
      dsimp only [List.cons_append]
      rw [if_neg (Ne.symm herr.1), hinner next List.mem_cons_self, if_neg Bool.false_ne_true, hrest]

/-! ## The payload -/

/-- `b;x;y` in decimals. -/
def reportText (button x y : ℤ) : Text := intText button ++ ';' :: (intText x ++ ';' :: intText y)

/-- The keys of a report: `ESC [ <`, the payload and the letter. -/
def reportKeys (button x y : ℤ) (letter : Char) : List ℤ :=
  keyEscape :: keysOf ('[' :: '<' :: (reportText button x y ++ [letter]))

theorem scanInt_intText {n : ℤ} (hlow : 0 ≤ n) (hhigh : n < 2 ^ 31) {rest : Text}
    (hrest : ∀ c ∈ rest.head?, c.isDigit = false) : scanInt (intText n ++ rest) = some (n, rest) := by
  lift n to ℕ using hlow
  have htext : intText (n : ℤ) = natText n := if_neg (by omega)
  rw [htext, scanInt, strtolEnd_natText n hrest, atoi_natText n hrest (by omega)]
  rfl

theorem intText_isDigit {n : ℤ} (h : 0 ≤ n) : ∀ c ∈ intText n, c.isDigit = true := by
  rw [intText, if_neg (by omega)]
  exact natText_isDigit n.natAbs

section Report
variable {button x y : ℤ} (hbutton : 0 ≤ button) (hx : 0 ≤ x) (hy : 0 ≤ y)
include hbutton hx hy

theorem reportText_chars : ∀ c ∈ reportText button x y, c.isDigit = true ∨ c = ';' := by
  intro c hc
  simp only [reportText, List.mem_append, List.mem_cons] at hc
  rcases hc with hc | rfl | hc | rfl | hc
  · exact .inl (intText_isDigit hbutton c hc)
  · exact .inr rfl
  · exact .inl (intText_isDigit hx c hc)
  · exact .inr rfl
  · exact .inl (intText_isDigit hy c hc)

theorem scanReport_reportText (hb : button < 2 ^ 31) (hxb : x < 2 ^ 31) (hyb : y < 2 ^ 31) :
    scanReport (reportText button x y) = some (button, x, y) := by
  have hsemicolon : ∀ rest : Text, ∀ c ∈ (';' :: rest).head?, c.isDigit = false := by
    rintro rest c hc
    obtain rfl : ';' = c := Option.some.inj hc
    rfl
  have hfirst : scanInt (reportText button x y) = some (button, ';' :: (intText x ++ ';' :: intText y)) :=
    scanInt_intText hbutton hb (hsemicolon _)
  have hsecond : scanInt (intText x ++ ';' :: intText y) = some (x, ';' :: intText y) :=
    scanInt_intText hx hxb (hsemicolon _)
  have hthird : scanInt (intText y) = some (y, []) := by
    have h : scanInt (intText y ++ []) = some (y, []) := scanInt_intText hy hyb (by simp)
    rwa [List.append_nil] at h
  have hnul : (reportText button x y).takeWhile (· ≠ '\x00') = reportText button x y := by
    refine List.takeWhile_eq_self_iff.mpr fun c hc => decide_eq_true ?_
    rintro rfl
    rcases reportText_chars hbutton hx hy _ hc with h | h <;> cases h
  unfold scanReport
  rw [hnul, hfirst]
  simp only [Option.bind_eq_bind, Option.bind_some, scanSemicolon, hsecond, hthird, Option.pure_def]

theorem map_byteOf_reportText :
    (keysOf (reportText button x y)).map byteOf = reportText button x y := by
  rw [keysOf, List.map_map]
  refine (List.map_congr_left fun c hc => ?_).trans (List.map_id _)
  have hrange : c.toNat < 256 := by
    rcases reportText_chars hbutton hx hy c hc with h | rfl
    · have := toNat_of_isDigit h
      omega
    · decide
  exact byteOf_key hrange

/-- The payload is read up to its letter. -/
theorem readUntil_reportText (hlength : (reportText button x y).length ≤ 31) {letter : Char}
    (hletter : letter = 'M' ∨ letter = 'm') (following : List ℤ) :
    readUntil endsReport 32 (keysOf (reportText button x y) ++ key letter :: following) =
      (keysOf (reportText button x y), some (key letter), following) := by
  have hinner : ∀ next ∈ keysOf (reportText button x y), endsReport next = false := by
    intro next hnext
    obtain ⟨c, hc, rfl⟩ := List.mem_map.mp hnext
    exact endsReport_inner (reportText_chars hbutton hx hy c hc)
  have hdata : err ∉ keysOf (reportText button x y) := by
    intro hmem
    obtain ⟨c, -, hc⟩ := List.mem_map.mp hmem
    exact key_ne_err c hc
  have hend : endsReport (key letter) = true := by
    rcases hletter with rfl | rfl <;> rfl
  exact readUntil_final (by rw [keysOf, List.length_map]; omega) hdata hinner (key_ne_err letter) hend

end Report

/-! ## The event -/

/-- The report of every button and position that fits is decoded to the position, counted from 0, with
a release exactly for the letter `m` and the first button, and what follows it is left. -/
theorem readInputEvent_report {button x y : ℤ} (hbutton : 0 ≤ button ∧ button < 2 ^ 31)
    (hx : 1 ≤ x ∧ x < 2 ^ 31) (hy : 1 ≤ y ∧ y < 2 ^ 31)
    (hlength : (reportText button x y).length ≤ 31) {letter : Char}
    (hletter : letter = 'M' ∨ letter = 'm') (following : List ℤ) :
    readInputEvent (reportKeys button x y letter ++ following) =
      ({ key := keyMouse
         mouse := some ⟨x - 1, y - 1, letter = 'm' && button % 4 = 0⟩
         parsedEscape := true }, following) := by
  have hx0 : 0 ≤ x := by omega
  have hy0 : 0 ≤ y := by omega
  have hkeys : reportKeys button x y letter ++ following = keyEscape :: key '[' :: key '<' ::
      (keysOf (reportText button x y) ++ key letter :: following) := by
    simp [reportKeys, keysOf]
  have hm : key letter = key 'm' ↔ letter = 'm' := by
    rcases hletter with rfl | rfl <;> decide
  rw [hkeys, readInputEvent_sequence (key_ne_err _) (key_ne_err _), if_pos ⟨rfl, rfl⟩,
    readUntil_reportText hbutton.1 hx0 hy0 hlength hletter]
  dsimp only
  rw [map_byteOf_reportText hbutton.1 hx0 hy0]
  unfold parseReport
  rw [scanReport_reportText hbutton.1 hx0 hy0 hbutton.2 hx.2 hy.2]
  simp only [hm, max_eq_right (by omega : 0 ≤ x - 1), max_eq_right (by omega : 0 ≤ y - 1)]

/-- A payload of 31 characters, with a key typed behind it. -/
theorem readInputEvent_report_longest :
    readInputEvent (reportKeys 1000000000 1000000000 100000000 'm' ++ [key 'q']) =
      ({ key := keyMouse, mouse := some ⟨999999999, 99999999, true⟩, parsedEscape := true },
        [key 'q']) :=
  readInputEvent_report ⟨by decide, by decide⟩ ⟨by decide, by decide⟩ ⟨by decide, by decide⟩
    (by decide) (.inr rfl) [key 'q']

end Mtop
