import Mtop.Library.CyclicSearch
import Mathlib.Data.List.Rotate

/-! Searching a cycle again and again: each search goes on from the hit of the one before it, so the
hits are visited in turn, all of them before the first one comes back. -/
namespace Cxx
set_option autoImplicit false

/-- The indices that hit, in order. -/
def hitsIn (hit : ℤ → Bool) (size : ℕ) : List ℤ :=
  ((List.range size).map fun (n : ℕ) => (n : ℤ)).filter hit

/-- The hits behind the base, then those up to it. -/
def tourFrom (hit : ℤ → Bool) (size : ℕ) (base : ℤ) : List ℤ :=
  (hitsIn hit size).filter (base < ·) ++ (hitsIn hit size).filter (· ≤ base)

section Tour
variable {hit : ℤ → Bool} {size : ℕ} {base index : ℤ}

theorem mem_hitsIn :
    index ∈ hitsIn hit size ↔ (0 ≤ index ∧ index < size) ∧ hit index = true := by
  unfold hitsIn
  rw [List.mem_filter, List.mem_map]
  refine and_congr_left fun _ => ⟨?_, fun ⟨hlow, hhigh⟩ => ?_⟩
  · rintro ⟨n, hn, rfl⟩
    have hlt := List.mem_range.mp hn
    omega
  · exact ⟨index.toNat, List.mem_range.mpr (by omega), Int.toNat_of_nonneg hlow⟩

theorem hitsIn_pairwise (hit : ℤ → Bool) (size : ℕ) : (hitsIn hit size).Pairwise (· < ·) := by
  refine List.Pairwise.filter _ (List.pairwise_map.mpr ?_)
  exact List.pairwise_lt_range.imp fun h => Int.ofNat_lt.mpr h

theorem mem_tourFrom : index ∈ tourFrom hit size base ↔ index ∈ hitsIn hit size := by
  unfold tourFrom
  rw [List.mem_append, List.mem_filter, List.mem_filter, decide_eq_true_eq, decide_eq_true_eq,
    ← and_or_left]
  exact and_iff_left (lt_or_ge base index)

/-- Wherever the hits are parted into those up to the base and those behind it, the tour is the hits
turned around there. -/
theorem tourFrom_of_parts {upTo behind : List ℤ} (hhits : hitsIn hit size = upTo ++ behind)
    (hupTo : ∀ x ∈ upTo, x ≤ base) (hbehind : ∀ x ∈ behind, base < x) :
    tourFrom hit size base = (hitsIn hit size).rotate upTo.length := by
  have hkeep : behind.filter (base < ·) = behind :=
    List.filter_eq_self.mpr fun x hx => decide_eq_true (hbehind x hx)
  have hdrop : upTo.filter (base < ·) = [] :=
    List.filter_eq_nil_iff.mpr fun x hx => by simpa using hupTo x hx
  have hkeep' : upTo.filter (· ≤ base) = upTo :=
    List.filter_eq_self.mpr fun x hx => decide_eq_true (hupTo x hx)
  have hdrop' : behind.filter (· ≤ base) = [] :=
    List.filter_eq_nil_iff.mpr fun x hx => by simpa using hbehind x hx
  unfold tourFrom
  rw [hhits, List.rotate_append_length_eq, List.filter_append, List.filter_append, hkeep, hdrop,
    hkeep', hdrop', List.append_nil, List.nil_append]

/-- A sorted list is its elements up to the base and those behind it. -/
theorem filter_le_append_filter_lt {l : List ℤ} (h : l.Pairwise (· < ·)) (base : ℤ) :
    l.filter (· ≤ base) ++ l.filter (base < ·) = l := by
  induction l with
  | nil => rfl
  | cons x l ih =>
    obtain ⟨hfirst, hrest⟩ := List.pairwise_cons.mp h
    by_cases hx : x ≤ base
    · rw [List.filter_cons, if_pos (decide_eq_true hx), List.filter_cons,
        if_neg (by simpa using hx), List.cons_append, ih hrest]
    · have hnone : (x :: l).filter (· ≤ base) = [] := by
        refine List.filter_eq_nil_iff.mpr fun y hy => ?_
        rcases List.mem_cons.mp hy with rfl | hy
        · simpa using hx
        · have hlt := hfirst y hy
          simp only [decide_eq_true_eq, not_le]
          omega
      have hall : (x :: l).filter (base < ·) = x :: l := by
        refine List.filter_eq_self.mpr fun y hy => decide_eq_true ?_
        rcases List.mem_cons.mp hy with rfl | hy
        · omega
        · have hlt := hfirst y hy
          omega
      rw [hnone, hall, List.nil_append]

theorem tourFrom_eq_rotate (hit : ℤ → Bool) (size : ℕ) (base : ℤ) :
    ∃ n, tourFrom hit size base = (hitsIn hit size).rotate n := by
  have hparts := filter_le_append_filter_lt (hitsIn_pairwise hit size) base
  refine ⟨((hitsIn hit size).filter (· ≤ base)).length, tourFrom_of_parts hparts.symm ?_ ?_⟩
  · exact fun x hx => of_decide_eq_true (List.mem_filter.mp hx).2
  · exact fun x hx => of_decide_eq_true (List.mem_filter.mp hx).2

/-- From a hit the tour goes on behind it. -/
theorem tourFrom_hit {n : ℕ} (h : (hitsIn hit size)[n]? = some index) :
    tourFrom hit size index = (hitsIn hit size).rotate (n + 1) := by
  obtain ⟨hn, hindex⟩ := List.getElem?_eq_some_iff.mp h
  have hsorted := List.pairwise_iff_getElem.mp (hitsIn_pairwise hit size)
  have hparts : tourFrom hit size index =
      (hitsIn hit size).rotate ((hitsIn hit size).take (n + 1)).length := by
    refine tourFrom_of_parts (List.take_append_drop _ _).symm (fun x hx => ?_) fun x hx => ?_
    · obtain ⟨i, hi, rfl⟩ := List.getElem_of_mem hx
      rw [List.length_take] at hi
      rw [List.getElem_take, ← hindex]
      rcases Nat.lt_or_ge i n with hlt | hge
      · exact (hsorted i n (by omega) hn hlt).le
      · exact le_of_eq (getElem_congr_idx (by omega))
    · obtain ⟨i, hi, rfl⟩ := List.getElem_of_mem hx
      rw [List.length_drop] at hi
      rw [List.getElem_drop, ← hindex]
      exact hsorted n (n + 1 + i) hn (by omega) (by omega)
  rw [hparts, List.length_take, min_eq_left hn]

/-- The next hit is where the tour begins. -/
theorem NextHit.head (h : NextHit hit base size index) :
    (tourFrom hit size base).head? = some index := by
  have hmem : index ∈ hitsIn hit size := mem_hitsIn.mpr ⟨h.inside, h.hits⟩
  have hsorted := hitsIn_pairwise hit size
  have hskipped : ∀ x ∈ hitsIn hit size, ¬ (if base < index then base < x ∧ x < index
      else base < x ∨ x < index) := by
    intro x hx
    obtain ⟨⟨hlow, hhigh⟩, hhit⟩ := mem_hitsIn.mp hx
    exact h.skipped x hlow hhigh hhit
  -- the first element of a part of the hits in which the index is the least
  have hleast : ∀ part : List ℤ, part.Pairwise (· < ·) → index ∈ part →
      (∀ x ∈ part, index ≤ x) → part.head? = some index := by
    intro part hpart hin hle
    obtain ⟨x, rest, rfl⟩ := List.exists_cons_of_ne_nil (List.ne_nil_of_mem hin)
    have hx := hle x List.mem_cons_self
    rcases List.mem_cons.mp hin with rfl | hin
    · rfl
    · have hlt := (List.pairwise_cons.mp hpart).1 index hin
      omega
  unfold tourFrom
  by_cases hbase : base < index
  · have hin : index ∈ (hitsIn hit size).filter (base < ·) :=
      List.mem_filter.mpr ⟨hmem, decide_eq_true hbase⟩
    rw [List.head?_append_of_ne_nil _ (List.ne_nil_of_mem hin)]
    refine hleast _ (hsorted.filter _) hin fun x hx => ?_
    obtain ⟨hx, hlt⟩ := List.mem_filter.mp hx
    have hbetween := hskipped x hx
    rw [if_pos hbase] at hbetween
    have hlt := of_decide_eq_true hlt
    omega
  · have hnone : (hitsIn hit size).filter (base < ·) = [] := by
      refine List.filter_eq_nil_iff.mpr fun x hx => ?_
      have hbetween := hskipped x hx
      rw [if_neg hbase] at hbetween
      simp only [decide_eq_true_eq]
      omega
    rw [hnone, List.nil_append]
    refine hleast _ (hsorted.filter _)
      (List.mem_filter.mpr ⟨hmem, decide_eq_true (not_lt.mp hbase)⟩) fun x hx => ?_
    have hbetween := hskipped x (List.mem_filter.mp hx).1
    rw [if_neg hbase] at hbetween
    omega

/-- The place of the tour that the search comes to after `n` others. -/
def Visits (hit : ℤ → Bool) (size : ℕ) (base : ℤ) (n : ℕ) (index : ℤ) : Prop :=
  (tourFrom hit size base)[n % (tourFrom hit size base).length]? = some index

theorem NextHit.visits_first (h : NextHit hit base size index) : Visits hit size base 0 index := by
  unfold Visits
  rw [Nat.zero_mod, ← List.head?_eq_getElem?]
  exact h.head

/-- One search after the other. -/
theorem Visits.next {n : ℕ} {after : ℤ} (h : Visits hit size base n index)
    (hnext : NextHit hit index size after) : Visits hit size base (n + 1) after := by
  obtain ⟨turn, hturn⟩ := tourFrom_eq_rotate hit size base
  have hlength : (tourFrom hit size base).length = (hitsIn hit size).length := by
    rw [hturn, List.length_rotate]
  unfold Visits at h ⊢
  have hpos : 0 < (hitsIn hit size).length := by
    rw [← hlength]
    exact List.length_pos_of_mem (List.mem_of_getElem? h)
  have hlt : ∀ m, m % (hitsIn hit size).length < (hitsIn hit size).length := fun m =>
    Nat.mod_lt m hpos
  rw [hlength, hturn, List.getElem?_rotate (hlt _), Nat.mod_add_mod] at h ⊢
  have hhead := hnext.head
  rw [tourFrom_hit h, List.head?_eq_getElem?, List.getElem?_rotate hpos, Nat.zero_add,
    Nat.mod_add_mod] at hhead
  rw [← hhead]
  congr 2
  omega

end Tour
end Cxx
