import Mathlib.Data.List.Range
import Mathlib.Algebra.Order.Ring.Nat
import Mtop.Library.CxxInt

/-! Vectors that are read and written with a check of the index, loops whose states are known, and
lists cut into consecutive slices of about the same length. -/
namespace Cxx
set_option autoImplicit false

variable {α β : Type}

/-! ## Checked writes -/

/-- `values[index] = value`; nothing outside the vector. -/
def setAt (values : List α) (index : ℤ) (value : α) : Option (List α) :=
  if 0 ≤ index ∧ index < values.length then some (values.set index.toNat value) else none

theorem setAt_append {before after : List α} {old : α} {index : ℤ} (h : index = before.length)
    (value : α) : setAt (before ++ old :: after) index value = some (before ++ value :: after) := by
  have hlength : (before ++ old :: after).length = before.length + (after.length + 1) := by simp
  unfold setAt
  rw [if_pos (by omega), h, Int.toNat_natCast, List.set_append_right _ _ (le_refl _), Nat.sub_self,
    List.set_cons_zero]

/-- A vector that is filled from the left. -/
theorem setAt_replicate {before : List α} {room : ℕ} {index : ℤ} (h : index = before.length)
    (hroom : 0 < room) (old value : α) :
    setAt (before ++ List.replicate room old) index value =
      some (before ++ [value] ++ List.replicate (room - 1) old) := by
  obtain ⟨rest, rfl⟩ := Nat.exists_eq_add_of_le' hroom
  rw [List.replicate_succ, setAt_append h, Nat.add_sub_cancel, List.append_assoc, List.singleton_append]

/-! ## Loops -/

/-- A loop that goes through these states ends in the last one. -/
theorem foldlM_range {step : β → ℕ → Option β} (state : ℕ → β) {count : ℕ}
    (h : ∀ k < count, step (state k) k = some (state (k + 1))) :
    (List.range count).foldlM step (state 0) = some (state count) := by
  induction count with
  | zero => rfl
  | succ count ih =>
    rw [List.range_succ, List.foldlM_append, ih fun k hk => h k (by omega), Option.bind_eq_bind,
      Option.bind_some, List.foldlM_cons, h count (by omega)]
    rfl

/-- A loop that succeeds at every element collects what it finds there. -/
theorem exists_mapM {f : α → Option β} {l : List α} (h : ∀ x ∈ l, ∃ y, f x = some y) :
    ∃ ys, l.mapM f = some ys ∧ ∀ y, y ∈ ys ↔ ∃ x ∈ l, f x = some y := by
  induction l with
  | nil => exact ⟨[], rfl, fun y => by simp⟩
  | cons x l ih =>
    obtain ⟨first, hfirst⟩ := h x List.mem_cons_self
    obtain ⟨rest, hrest, hmem⟩ := ih fun other hother => h other (List.mem_cons_of_mem x hother)
    refine ⟨first :: rest, ?_, fun y => ?_⟩
    · rw [List.mapM_cons, hfirst, hrest]
      rfl
    · rw [List.mem_cons, List.exists_mem_cons_iff, hfirst, hmem, Option.some_inj, eq_comm]

/-! ## Slices -/

/-- Where slice `k` of `count` elements in `parts` slices begins. -/
def cut (count parts k : ℕ) : ℕ := k * count / parts

def slice (l : List α) (parts k : ℕ) : List α :=
  (l.drop (cut l.length parts k)).take (cut l.length parts (k + 1) - cut l.length parts k)

def slices (l : List α) (parts : ℕ) : List (List α) := (List.range parts).map (slice l parts)

section Cut
variable {count parts : ℕ}

theorem cut_zero : cut count parts 0 = 0 := by simp [cut]

theorem cut_self (h : 0 < parts) : cut count parts parts = count :=
  Nat.mul_div_cancel_left count h

theorem cut_mono {j k : ℕ} (h : j ≤ k) : cut count parts j ≤ cut count parts k :=
  Nat.div_le_div_right (Nat.mul_le_mul_right count h)

/-- With no more slices than elements every slice has one. -/
theorem cut_lt_cut_succ (hpos : 0 < parts) (hle : parts ≤ count) (k : ℕ) :
    cut count parts k < cut count parts (k + 1) := by
  have hstep : k * count + parts ≤ (k + 1) * count := by
    rw [Nat.succ_mul]
    omega
  have hdiv := Nat.div_le_div_right (c := parts) hstep
  rw [Nat.add_div_right _ hpos] at hdiv
  exact hdiv

theorem cut_le {k : ℕ} (hk : k ≤ parts) : cut count parts k ≤ count := by
  rcases Nat.eq_zero_or_pos parts with rfl | hpos
  · rw [cut, Nat.div_zero]
    exact Nat.zero_le count
  · exact (cut_mono hk).trans_eq (cut_self hpos)

theorem le_cut (hpos : 0 < parts) (hle : parts ≤ count) (k : ℕ) : k ≤ cut count parts k := by
  induction k with
  | zero => exact Nat.zero_le _
  | succ k ih =>
    have hlt := cut_lt_cut_succ hpos hle k
    omega

/-- Every later slice takes an element of its own. -/
theorem cut_add_le (hle : parts ≤ count) {k : ℕ} (hk : k ≤ parts) :
    cut count parts k + (parts - k) ≤ count := by
  induction hk using Nat.decreasingInduction with
  | self =>
    rw [Nat.sub_self]
    exact cut_le (le_refl parts)
  | of_succ k hk ih =>
    have hlt := cut_lt_cut_succ (by omega) hle k
    omega

/-- Every position lies in a slice. -/
theorem exists_slice {index k : ℕ} (h : index < cut count parts k) :
    ∃ j < k, cut count parts j ≤ index ∧ index < cut count parts (j + 1) := by
  induction k with
  | zero =>
    rw [cut_zero] at h
    exact absurd h (Nat.not_lt_zero index)
  | succ k ih =>
    by_cases hbefore : index < cut count parts k
    · obtain ⟨j, hj, hin⟩ := ih hbefore
      exact ⟨j, Nat.lt_succ_of_lt hj, hin⟩
    · exact ⟨k, Nat.lt_succ_self k, not_lt.mp hbefore, h⟩

end Cut

section Slices
variable {l : List α} {parts : ℕ}

theorem length_slices : (slices l parts).length = parts := by simp [slices]

theorem length_slice {k : ℕ} (hk : k < parts) :
    (slice l parts k).length = cut l.length parts (k + 1) - cut l.length parts k := by
  have hend : cut l.length parts (k + 1) ≤ l.length := cut_le hk
  rw [slice, List.length_take, List.length_drop]
  omega

theorem slice_ne_nil (hle : parts ≤ l.length) {k : ℕ} (hk : k < parts) : slice l parts k ≠ [] := by
  have hlt := cut_lt_cut_succ (by omega) hle k
  rw [← List.length_pos_iff, length_slice hk]
  omega

theorem flatten_take_slices (k : ℕ) :
    ((List.range k).map (slice l parts)).flatten = l.take (cut l.length parts k) := by
  induction k with
  | zero => simp [cut_zero]
  | succ k ih =>
    have hmono : cut l.length parts k ≤ cut l.length parts (k + 1) := cut_mono (Nat.le_succ k)
    rw [List.range_succ, List.map_append, List.flatten_append, ih, List.map_singleton,
      List.flatten_singleton, slice, ← List.take_add, Nat.add_sub_cancel' hmono]

/-- The slices cover the list, each element once and in order. -/
theorem flatten_slices (hpos : 0 < parts) : (slices l parts).flatten = l := by
  rw [slices, flatten_take_slices, cut_self hpos, List.take_length]

end Slices
end Cxx
