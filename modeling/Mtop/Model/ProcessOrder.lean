import Mtop.Model.ProcessSort
import Mtop.Library.StdSort
import Mathlib.Data.List.Lex
import Mathlib.Data.Char

/-! `process_sort_less` as an order on processes: strict and weak in every mode and direction, total
up to equal pids, with missing values last. -/
namespace Mtop
open Cxx
set_option autoImplicit false

/-- Both percentages are numbers. -/
def ProcessSnapshot.Numeric (process : ProcessSnapshot) : Prop :=
  process.cpuPercent ≠ .nan ∧ process.memoryPercent ≠ .nan

/-- The percentage that a mode compares, if any, is a number. -/
def ProcessSnapshot.NumericIn (mode : SortMode) (process : ProcessSnapshot) : Prop :=
  (mode = .cpu → process.cpuPercent ≠ .nan) ∧ (mode = .mem → process.memoryPercent ≠ .nan)

theorem ProcessSnapshot.Numeric.inMode {process : ProcessSnapshot} (h : process.Numeric)
    (mode : SortMode) : process.NumericIn mode :=
  ⟨fun _ => h.1, fun _ => h.2⟩

/-! ## Comparing one column, then pids -/

/-- `==` and `<` of a column fit together on the values with a property. -/
structure Decides {β : Type} (eq less : β → β → Bool) (T : β → Prop) : Prop where
  strictWeak : StrictWeakOn less T
  eq_eq : ∀ a b, T a → T b → eq a b = (!less a b && !less b a)

/-- The column compared in the direction of the sort. -/
def directed {β : Type} (less : β → β → Bool) (direction : ℤ) (a b : β) : Bool :=
  if direction > 0 then less a b else less b a

section Column
variable {β : Type} {eq less : β → β → Bool} {T : β → Prop} {direction : ℤ}

theorem directed_strictWeakOn (h : StrictWeakOn less T) :
    StrictWeakOn (directed less direction) T := by
  unfold StrictWeakOn directed
  split
  · exact h
  · exact StrictWeak.flip h

theorem compareOr_eq (h : Decides eq less T) {a b : β} (ha : T a) (hb : T b) (otherwise : Bool) :
    compareOr eq less a b direction otherwise =
      (directed less direction a b || (!directed less direction b a && otherwise)) := by
  unfold compareOr directed
  rw [h.eq_eq a b ha hb]
  cases hab : less a b with
  | false =>
    cases less b a with
    | false => simp only [ite_self]; rfl
    | true => by_cases hdirection : direction > 0 <;> simp [hdirection]
  | true =>
    rw [h.strictWeak.asymm ha hb hab]
    by_cases hdirection : direction > 0 <;> simp [hdirection]

variable {f : ProcessSnapshot → β} {S : ProcessSnapshot → Prop}

theorem compareOr_strictWeakOn (h : Decides eq less T) (hf : ∀ process, S process → T (f process)) :
    StrictWeakOn (fun a b => compareOr eq less (f a) (f b) direction (decide (a.pid < b.pid))) S := by
  have hcolumn : StrictWeak fun a b : Subtype S => directed less direction (f a) (f b) :=
    (directed_strictWeakOn h.strictWeak).comap fun a : Subtype S => ⟨f a, hf a a.2⟩
  have hpid : StrictWeak fun a b : Subtype S => decide (a.val.pid < b.val.pid) :=
    StrictWeak.of_linear.comap fun a : Subtype S => a.val.pid
  have hlex : (fun a b : Subtype S =>
      compareOr eq less (f a) (f b) direction (decide (a.val.pid < b.val.pid))) =
        fun a b : Subtype S => directed less direction (f a) (f b) ||
          (!directed less direction (f b) (f a) && decide (a.val.pid < b.val.pid)) := by
    funext a b
    exact compareOr_eq h (hf a a.2) (hf b b.2) _
  unfold StrictWeakOn
  rw [hlex]
  exact hcolumn.lex hpid

theorem compareOr_total (h : Decides eq less T) {a b : ProcessSnapshot} (ha : T (f a)) (hb : T (f b))
    (hpid : a.pid ≠ b.pid) :
    compareOr eq less (f a) (f b) direction (decide (a.pid < b.pid)) = true ∨
      compareOr eq less (f b) (f a) direction (decide (b.pid < a.pid)) = true := by
  rw [compareOr_eq h ha hb, compareOr_eq h hb ha]
  rcases lt_or_gt_of_ne hpid with hlt | hlt <;>
    cases directed less direction (f a) (f b) <;> cases directed less direction (f b) (f a) <;>
      simp [hlt]

end Column

/-! ## The columns -/

theorem decides_linear {β : Type} [LinearOrder β] [BEq β] [LawfulBEq β]
    {_ : ∀ a b : β, Decidable (a < b)} :
    Decides (· == ·) (fun a b : β => decide (a < b)) fun _ => True where
  strictWeak := StrictWeak.of_linear.comap Subtype.val
  eq_eq a b _ _ := by
    rcases lt_trichotomy a b with h | rfl | h
    · simp [h, h.ne]
    · simp
    · simp [h, h.ne']

theorem decides_uint64 : Decides (· == ·) (fun a b : UInt64 => decide (a < b)) fun _ => True where
  strictWeak := by
    have h : StrictWeak fun a b : UInt64 => decide (a.toNat < b.toNat) :=
      StrictWeak.of_linear.comap UInt64.toNat
    have hless : (fun a b : UInt64 => decide (a < b)) = fun a b => decide (a.toNat < b.toNat) := by
      funext a b
      exact decide_eq_decide.mpr UInt64.lt_iff_toNat_lt
    rw [hless]
    exact h.comap Subtype.val
  eq_eq a b _ _ := by
    simp only [UInt64.lt_iff_toNat_lt, beq_eq_decide, ← UInt64.toNat_inj]
    rcases lt_trichotomy a.toNat b.toNat with h | h | h
    · simp [h, h.ne]
    · simp [h]
    · simp [h, h.ne']

theorem decides_gpu : Decides (· == ·) (fun a b : Bool => !a && b) fun _ => True where
  strictWeak := by
    have h : StrictWeak fun a b : Bool => !a && b := ⟨by decide, by decide⟩
    exact h.comap Subtype.val
  eq_eq a b _ _ := by cases a <;> cases b <;> rfl

theorem decides_double : Decides Double.eq Double.lt (· ≠ .nan) where
  strictWeak := by
    have h : StrictWeak fun a b : Subtype fun d : Double => d ≠ .nan =>
        decide (a.val.position < b.val.position) :=
      StrictWeak.of_linear.comap fun a : Subtype fun d : Double => d ≠ .nan => a.val.position
    have hless : (fun a b : Subtype fun d : Double => d ≠ .nan => Double.lt a b) =
        fun a b => decide (a.val.position < b.val.position) := by
      funext a b
      exact Double.lt_eq_position a.2 b.2
    unfold StrictWeakOn
    rw [hless]
    exact h
  eq_eq a b ha hb := Double.eq_eq_not_lt ha hb

theorem finiteScore_ne_nan (score : Double) (direction : ℤ) : finiteScore score direction ≠ .nan := by
  unfold finiteScore
  cases score with
  | finite s x => exact Double.noConfusion
  | _ => exact Double.noConfusion

theorem ioScore_ne_nan (value : Text) (direction : ℤ) : ioScore value direction ≠ .nan := by
  unfold ioScore
  split
  · exact Double.noConfusion
  · split <;> exact finiteScore_ne_nan _ _

theorem powerScore_ne_nan (value : Text) (direction : ℤ) : powerScore value direction ≠ .nan := by
  unfold powerScore
  split
  · exact Double.noConfusion
  · exact finiteScore_ne_nan _ _

/-! ## The comparator -/

/-- Every mode compares one column of the process and then the pids. -/
theorem processSortLess_compares (mode : SortMode) (direction : ℤ) :
    ∃ (β : Type) (eq less : β → β → Bool) (T : β → Prop) (f : ProcessSnapshot → β),
      Decides eq less T ∧ (∀ process, process.NumericIn mode → T (f process)) ∧
        ∀ a b, processSortLess a b mode direction =
          compareOr eq less (f a) (f b) direction (decide (a.pid < b.pid)) := by
  cases mode with
  | pid => exact ⟨_, _, _, _, _, decides_linear, fun _ _ => trivial, fun _ _ => rfl⟩
  | cpu => exact ⟨_, _, _, _, _, decides_double, fun _ h => h.1 rfl, fun _ _ => rfl⟩
  | mem => exact ⟨_, _, _, _, _, decides_double, fun _ h => h.2 rfl, fun _ _ => rfl⟩
  | time => exact ⟨_, _, _, _, _, decides_uint64, fun _ _ => trivial, fun _ _ => rfl⟩
  | name => exact ⟨_, _, _, _, _, decides_linear, fun _ _ => trivial, fun _ _ => rfl⟩
  | gpuActive => exact ⟨_, _, _, _, _, decides_gpu, fun _ _ => trivial, fun _ _ => rfl⟩
  | io => exact ⟨_, _, _, _, fun process => ioScore process.io direction, decides_double,
      fun process _ => ioScore_ne_nan _ _, fun _ _ => rfl⟩
  | power => exact ⟨_, _, _, _, fun process => powerScore process.power direction, decides_double,
      fun process _ => powerScore_ne_nan _ _, fun _ _ => rfl⟩

theorem processSortLess_strictWeakOn (mode : SortMode) (direction : ℤ) :
    StrictWeakOn (fun a b => processSortLess a b mode direction)
      (ProcessSnapshot.NumericIn mode) := by
  obtain ⟨β, eq, less, T, f, hdecides, hf, hless⟩ := processSortLess_compares mode direction
  simp only [hless]
  exact compareOr_strictWeakOn hdecides hf

theorem processSortLess_total (mode : SortMode) (direction : ℤ) {a b : ProcessSnapshot}
    (ha : a.NumericIn mode) (hb : b.NumericIn mode) (hpid : a.pid ≠ b.pid) :
    processSortLess a b mode direction = true ∨ processSortLess b a mode direction = true := by
  obtain ⟨β, eq, less, T, f, hdecides, hf, hless⟩ := processSortLess_compares mode direction
  rw [hless, hless]
  exact compareOr_total hdecides (hf a ha) (hf b hb) hpid

/-- A score that is a number comes before that of a missing value, in either direction. -/
theorem compareOr_missing {score : Double} (h : score.isFinite = true) (direction : ℤ)
    (otherwise : Bool) :
    compareOr Double.eq Double.lt score (missingSortScore direction) direction otherwise = true := by
  cases score with
  | finite s x =>
    unfold compareOr missingSortScore
    by_cases hdirection : direction > 0
    · have hnot : ¬ direction ≤ 0 := not_le.mpr hdirection
      simp [Double.eq, Double.lt, hdirection, hnot]
    · have hle : direction ≤ 0 := not_lt.mp hdirection
      simp [Double.eq, Double.lt, hdirection, hle]
  | _ => cases h

end Mtop
