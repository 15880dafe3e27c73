import Mathlib.Data.List.Sort
import Mathlib.Order.Defs.Unbundled

/-! `std::sort` as its contract: some permutation of the range, ordered by the comparator when
the comparator is a strict weak order on the elements of the range. The order of equivalent elements
is left open. -/
namespace Cxx
set_option autoImplicit false

/-- The requirement `std::sort` places on its comparator. -/
structure StrictWeak {α : Type} (less : α → α → Bool) : Prop where
  asymm : ∀ a b, less a b = true → less b a = false
  negTrans : ∀ a b c, less a b = false → less b c = false → less a c = false

namespace StrictWeak
variable {α β : Type}

/-- Comparing through a function keeps the order. -/
theorem comap {less : β → β → Bool} (h : StrictWeak less) (f : α → β) :
    StrictWeak fun a b => less (f a) (f b) where
  asymm _ _ hab := h.asymm _ _ hab
  negTrans _ _ _ hab hbc := h.negTrans _ _ _ hab hbc

theorem of_linear [LinearOrder β] {_ : ∀ a b : β, Decidable (a < b)} :
    StrictWeak fun a b : β => decide (a < b) where
  asymm a b hab := by
    simp only [decide_eq_true_eq, decide_eq_false_iff_not] at hab ⊢
    exact lt_asymm hab
  negTrans a b c hab hbc := by
    simp only [decide_eq_false_iff_not, not_lt] at hab hbc ⊢
    exact hbc.trans hab

theorem flip {less : α → α → Bool} (h : StrictWeak less) : StrictWeak fun a b => less b a where
  asymm a b hab := h.asymm b a hab
  negTrans a b c hab hbc := h.negTrans c b a hbc hab

/-- `if (x != y) return first; return second;`, both on keys. -/
theorem lex {first second : α → α → Bool} (h1 : StrictWeak first) (h2 : StrictWeak second) :
    StrictWeak fun a b => first a b || (!first b a && second a b) where
  asymm a b hab := by
    cases h : first a b with
    | true => simp [h1.asymm a b h]
    | false =>
      simp only [h, Bool.false_or, Bool.and_eq_true, Bool.not_eq_true'] at hab
      simp [hab.1, h2.asymm a b hab.2]
  negTrans a b c hab hbc := by
    simp only [Bool.or_eq_false_iff, Bool.and_eq_false_iff, Bool.not_eq_false'] at hab hbc ⊢
    refine ⟨h1.negTrans a b c hab.1 hbc.1, ?_⟩
    cases hca : first c a with
    | true => exact .inl rfl
    | false =>
      have hba : first b a = false := h1.negTrans b c a hbc.1 hca
      have hcb : first c b = false := h1.negTrans c a b hca hab.1
      simp only [hba, hcb, Bool.false_eq_true, false_or] at hab hbc
      exact .inr (h2.negTrans a b c hab.2 hbc.2)

end StrictWeak

/-! ## Some elements only -/

/-- A strict weak order on the elements with a property. -/
def StrictWeakOn {α : Type} (less : α → α → Bool) (S : α → Prop) : Prop :=
  StrictWeak fun a b : Subtype S => less a b

namespace StrictWeakOn
variable {α : Type} {less : α → α → Bool} {S T : α → Prop}

theorem mono (h : StrictWeakOn less S) (hT : ∀ a, T a → S a) : StrictWeakOn less T :=
  StrictWeak.comap h fun a : Subtype T => ⟨a, hT a a.2⟩

theorem asymm (h : StrictWeakOn less S) {a b : α} (ha : S a) (hb : S b) (hab : less a b = true) :
    less b a = false := StrictWeak.asymm h ⟨a, ha⟩ ⟨b, hb⟩ hab

theorem negTrans (h : StrictWeakOn less S) {a b c : α} (ha : S a) (hb : S b) (hc : S c)
    (hab : less a b = false) (hbc : less b c = false) : less a c = false :=
  StrictWeak.negTrans h ⟨a, ha⟩ ⟨b, hb⟩ ⟨c, hc⟩ hab hbc

theorem irrefl (h : StrictWeakOn less S) {a : α} (ha : S a) : less a a = false := by
  cases hless : less a a with
  | false => rfl
  | true => exact hless.symm.trans (h.asymm ha ha hless)

theorem trans (h : StrictWeakOn less S) {a b c : α} (ha : S a) (hb : S b) (hc : S c)
    (hab : less a b = true) (hbc : less b c = true) : less a c = true := by
  cases hac : less a c with
  | true => rfl
  | false =>
    have := h.negTrans ha hc hb hac (h.asymm hb hc hbc)
    rw [hab] at this
    cases this

end StrictWeakOn

structure StdSort where
  sort : {α : Type} → (α → α → Bool) → List α → List α
  perm : ∀ {α : Type} (less : α → α → Bool) (l : List α), (sort less l).Perm l
  sortedOn : ∀ {α : Type} (less : α → α → Bool) (l : List α), StrictWeakOn less (· ∈ l) →
    (sort less l).Pairwise fun a b => less b a = false

namespace StdSort

theorem pairwise_insertionSort {α : Type} {less : α → α → Bool} (h : StrictWeak less)
    (l : List α) :
    (l.insertionSort fun a b => less b a = false).Pairwise fun a b => less b a = false := by
  have total : ∀ a b, less b a = false ∨ less a b = false := fun a b => by
    cases hba : less b a with
    | false => exact .inl rfl
    | true => exact .inr (h.asymm b a hba)
  have : Std.Total fun a b => less b a = false := ⟨total⟩
  have : IsTrans _ fun a b => less b a = false := ⟨fun a b c hab hbc => h.negTrans c b a hbc hab⟩
  exact List.pairwise_insertionSort _ l

/-- Insertion sort meets the contract. -/
def insertion : StdSort where
  sort less l := l.insertionSort fun a b => less b a = false
  perm less l := List.perm_insertionSort _ l
  sortedOn less l h := by
    have hsorted := pairwise_insertionSort h l.attach
    have hmap := List.map_insertionSort (r := fun a b : {a // a ∈ l} => less b a = false)
      (s := fun a b => less b a = false) Subtype.val l.attach fun _ _ _ _ => Iff.rfl
    rw [List.attach_map_subtype_val] at hmap
    rw [← hmap]
    exact List.pairwise_map.mpr hsorted

variable {α : Type} (σ : StdSort)

theorem sorted (less : α → α → Bool) (l : List α) (h : StrictWeak less) :
    (σ.sort less l).Pairwise fun a b => less b a = false :=
  σ.sortedOn less l (h.comap Subtype.val)

/-- Where no two elements are equivalent, there is one order to sort them in. -/
theorem eq_of_sorted {less : α → α → Bool} {l sorted sorted' : List α}
    (htotal : ∀ a ∈ l, ∀ b ∈ l, less a b = false → less b a = false → a = b)
    (hsub : ∀ a ∈ sorted, a ∈ l) (hsame : sorted.Perm sorted')
    (h : sorted.Pairwise fun a b => less b a = false)
    (h' : sorted'.Pairwise fun a b => less b a = false) : sorted = sorted' := by
  refine hsame.eq_of_pairwise (fun a b ha hb hab hba => ?_) h h'
  exact htotal a (hsub a ha) b (hsub b (hsame.mem_iff.mpr hb)) hba hab

/-- Every sort of every arrangement gives one result. -/
theorem sort_eq_of_perm (σ' : StdSort) {less : α → α → Bool} {l l' : List α}
    (h : StrictWeakOn less (· ∈ l)) (hperm : l.Perm l')
    (htotal : ∀ a ∈ l, ∀ b ∈ l, less a b = false → less b a = false → a = b) :
    σ.sort less l = σ'.sort less l' := by
  have hsorted := σ.sortedOn less l h
  have hsorted' := σ'.sortedOn less l' (h.mono fun _ => hperm.mem_iff.mpr)
  have hsame := ((σ.perm less l).trans hperm).trans (σ'.perm less l').symm
  exact eq_of_sorted htotal (fun _ => (σ.perm less l).mem_iff.mp) hsame hsorted hsorted'

/-- Elements may be dropped before or after the sort. -/
theorem filter_sort (σ' : StdSort) {less : α → α → Bool} {l : List α}
    (h : StrictWeakOn less (· ∈ l))
    (htotal : ∀ a ∈ l, ∀ b ∈ l, less a b = false → less b a = false → a = b) (keep : α → Bool) :
    (σ.sort less l).filter keep = σ'.sort less (l.filter keep) := by
  have hsorted := (σ.sortedOn less l h).filter keep
  have hsorted' := σ'.sortedOn less (l.filter keep) (h.mono fun _ => List.mem_of_mem_filter)
  have hsame := ((σ.perm less l).filter keep).trans (σ'.perm less (l.filter keep)).symm
  have hsub : ∀ a ∈ (σ.sort less l).filter keep, a ∈ l := fun _ ha =>
    (σ.perm less l).mem_iff.mp (List.mem_of_mem_filter ha)
  exact eq_of_sorted htotal hsub hsame hsorted hsorted'

end StdSort

/-! ## Two places of a sorted range -/

/-- One element stands somewhere before the other. -/
def Precedes {α : Type} (l : List α) (a b : α) : Prop := List.Sublist [a, b] l

section Precedes
variable {α : Type} {l : List α} {a b : α}

theorem Precedes.mem (h : Precedes l a b) : a ∈ l ∧ b ∈ l :=
  ⟨h.subset List.mem_cons_self, h.subset (List.mem_cons_of_mem _ List.mem_cons_self)⟩

theorem Precedes.ne (h : Precedes l a b) (hnodup : l.Nodup) : a ≠ b := by
  rintro rfl
  exact List.nodup_iff_sublist.mp hnodup a h

theorem precedes_or (ha : a ∈ l) (hb : b ∈ l) (hne : a ≠ b) : Precedes l a b ∨ Precedes l b a := by
  obtain ⟨before, after, rfl⟩ := List.append_of_mem ha
  rcases List.mem_append.mp hb with hbefore | hafter
  · have hfirst : List.Sublist [b] before := List.singleton_sublist.mpr hbefore
    have hsecond : List.Sublist [a] (a :: after) := List.singleton_sublist.mpr List.mem_cons_self
    exact .inr (hfirst.append hsecond)
  · have hsecond : List.Sublist [b] after :=
      List.singleton_sublist.mpr ((List.mem_cons.mp hafter).resolve_left (Ne.symm hne))
    exact .inl ((hsecond.cons_cons a).trans (List.sublist_append_right before _))

/-- In an ordered range the lesser of two elements stands first. -/
theorem precedes_iff_less {less : α → α → Bool}
    (hsorted : l.Pairwise fun a b => less b a = false) (ha : a ∈ l) (hb : b ∈ l)
    (hasymm : less a b = true → less b a = false) (htotal : less a b = true ∨ less b a = true) :
    Precedes l a b ↔ less a b = true := by
  constructor
  · intro hbefore
    have hba : less b a = false := hsorted.forall_sublist hbefore
    exact htotal.resolve_right (by rw [hba]; exact Bool.false_ne_true)
  · intro hab
    have hne : a ≠ b := by
      rintro rfl
      exact Bool.false_ne_true ((hasymm hab).symm.trans hab)
    refine (precedes_or ha hb hne).resolve_right fun hbefore => ?_
    have hnot : less a b = false := hsorted.forall_sublist hbefore
    exact Bool.false_ne_true (hnot.symm.trans hab)

end Precedes

/-! ## Searching a sorted range -/

/-- The first hit in a range sorted by a key is the hit with the least key. -/
theorem find?_eq_some_iff_least {α β : Type} [LinearOrder β] (key : α → β) {l : List α}
    (hl : l.Pairwise fun a b => key a < key b) {hit : α → Bool} {a : α} :
    l.find? hit = some a ↔
      a ∈ l ∧ hit a = true ∧ ∀ b ∈ l, hit b = true → key a ≤ key b := by
  induction l with
  | nil => simp
  | cons x l ih =>
    obtain ⟨hx, hl⟩ := List.pairwise_cons.mp hl
    rw [List.find?_cons]
    cases hhit : hit x with
    | true =>
      constructor
      · intro h
        obtain rfl : x = a := by simpa using h
        refine ⟨List.mem_cons_self, hhit, fun b hb _ => ?_⟩
        rcases List.mem_cons.mp hb with rfl | hb
        · exact le_rfl
        · exact (hx b hb).le
      · rintro ⟨ha, -, hle⟩
        rcases List.mem_cons.mp ha with rfl | ha
        · rfl
        · exact absurd (hx a ha) (not_lt.mpr (hle x List.mem_cons_self hhit))
    | false =>
      refine (ih hl).trans ?_
      constructor
      · rintro ⟨ha, hit_a, hle⟩
        refine ⟨List.mem_cons_of_mem _ ha, hit_a, fun b hb hit_b => ?_⟩
        rcases List.mem_cons.mp hb with rfl | hb
        · rw [hhit] at hit_b
          cases hit_b
        · exact hle b hb hit_b
      · rintro ⟨ha, hit_a, hle⟩
        rcases List.mem_cons.mp ha with rfl | ha
        · rw [hhit] at hit_a
          cases hit_a
        · exact ⟨ha, hit_a, fun b hb => hle b (List.mem_cons_of_mem _ hb)⟩

end Cxx
