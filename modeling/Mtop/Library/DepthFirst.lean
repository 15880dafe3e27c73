import Mathlib.Data.List.Basic
import Mathlib.Data.List.TakeWhile
import Mathlib.Data.List.Infix

/-! Depth-first listing of a graph in which a key is listed once: the recursion as a relation without
a bound on its depth, and the shape of what it lists, a forest in preorder with the depth of each
node. -/
namespace Cxx
set_option autoImplicit false

variable {α κ : Type} {key : α → κ} {next : α → List α}

/-! ## The recursion -/

/-- Visiting the nodes of a list in turn, `next` below each of them; a node whose key has been
listed is left out. `out` is what was listed before, `out'` what is listed in the end. -/
inductive DepthFirst (key : α → κ) (next : α → List α) :
    ℕ → List α → List (α × ℕ) → List (α × ℕ) → Prop where
  | nil (depth : ℕ) (out : List (α × ℕ)) : DepthFirst key next depth [] out out
  | skip {depth : ℕ} {node : α} {rest : List α} {out out' : List (α × ℕ)}
      (hseen : ∃ row ∈ out, key row.1 = key node)
      (hrest : DepthFirst key next depth rest out out') :
      DepthFirst key next depth (node :: rest) out out'
  | visit {depth : ℕ} {node : α} {rest : List α} {out mid out' : List (α × ℕ)}
      (hnew : ∀ row ∈ out, key row.1 ≠ key node)
      (hbelow : DepthFirst key next (depth + 1) (next node) (out ++ [(node, depth)]) mid)
      (hrest : DepthFirst key next depth rest mid out') :
      DepthFirst key next depth (node :: rest) out out'

namespace DepthFirst
variable {depth : ℕ} {nodes : List α} {out out' : List (α × ℕ)}

theorem append {mid : List (α × ℕ)} {nodes' : List α} (h : DepthFirst key next depth nodes out mid)
    (h' : DepthFirst key next depth nodes' mid out') :
    DepthFirst key next depth (nodes ++ nodes') out out' := by
  induction h with
  | nil depth out => exact h'
  | skip hseen _ ih => exact .skip hseen (ih h')
  | visit hnew hbelow _ _ ih => exact .visit hnew hbelow (ih h')

theorem subset (h : DepthFirst key next depth nodes out out') : out ⊆ out' := by
  induction h with
  | nil depth out => exact fun _ => id
  | skip _ _ ih => exact ih
  | visit _ _ _ ihbelow ih =>
    exact fun _ hrow => ih (ihbelow (List.mem_append_left _ hrow))

theorem nodup (h : DepthFirst key next depth nodes out out')
    (hout : (out.map fun row => key row.1).Nodup) : (out'.map fun row => key row.1).Nodup := by
  induction h with
  | nil depth out => exact hout
  | skip _ _ ih => exact ih hout
  | visit hnew _ _ ihbelow ih =>
    refine ih (ihbelow ?_)
    rw [List.map_append, List.nodup_append]
    refine ⟨hout, List.pairwise_singleton _ _, fun a ha b hb => ?_⟩
    obtain ⟨row, hrow, rfl⟩ := List.mem_map.mp ha
    rw [List.map_singleton, List.mem_singleton] at hb
    rw [hb]
    exact hnew row hrow

/-- Every node of the list ends up listed. -/
theorem seen (h : DepthFirst key next depth nodes out out') :
    ∀ node ∈ nodes, ∃ row ∈ out', key row.1 = key node := by
  induction h with
  | nil depth out => exact fun _ hnode => absurd hnode List.not_mem_nil
  | skip hseen hrest ih =>
    intro node hnode
    rcases List.mem_cons.mp hnode with rfl | hnode
    · obtain ⟨row, hrow, hkey⟩ := hseen
      exact ⟨row, hrest.subset hrow, hkey⟩
    · exact ih node hnode
  | visit _ hbelow hrest _ ih =>
    intro node hnode
    rcases List.mem_cons.mp hnode with rfl | hnode
    · have hrow := hbelow.subset (List.mem_append_right _ (List.mem_singleton_self _))
      exact ⟨_, hrest.subset hrow, rfl⟩
    · exact ih node hnode

/-- Below every node that is listed anew, everything is listed too. -/
theorem closed (h : DepthFirst key next depth nodes out out') :
    ∀ row ∈ out', row ∈ out ∨ ∀ below ∈ next row.1, ∃ row' ∈ out', key row'.1 = key below := by
  induction h with
  | nil depth out => exact fun _ => .inl
  | skip _ _ ih => exact ih
  | visit _ hbelow hrest ihbelow ih =>
    intro row hrow
    rcases ih row hrow with hmid | hclosed
    · rcases ihbelow row hmid with hout | hclosed
      · rcases List.mem_append.mp hout with hout | hlast
        · exact .inl hout
        · rw [List.mem_singleton.mp hlast]
          refine .inr fun below hb => ?_
          obtain ⟨row', hrow', hkey⟩ := hbelow.seen below hb
          exact ⟨row', hrest.subset hrow', hkey⟩
      · refine .inr fun below hb => ?_
        obtain ⟨row', hrow', hkey⟩ := hclosed below hb
        exact ⟨row', hrest.subset hrow', hkey⟩
    · exact .inr hclosed

/-- What is listed anew comes from the list or from below a node. -/
theorem origin {P : α → Prop} (hnext : ∀ node, P node → ∀ below ∈ next node, P below)
    (h : DepthFirst key next depth nodes out out') (hnodes : ∀ node ∈ nodes, P node) :
    ∀ row ∈ out', row ∈ out ∨ P row.1 := by
  induction h with
  | nil depth out => exact fun _ => .inl
  | skip _ _ ih => exact ih fun node hnode => hnodes node (List.mem_cons_of_mem _ hnode)
  | visit _ _ _ ihbelow ih =>
    intro row hrow
    have hnode := hnodes _ List.mem_cons_self
    rcases ih (fun node h => hnodes node (List.mem_cons_of_mem _ h)) row hrow with hmid | hP
    · rcases ihbelow (hnext _ hnode) row hmid with hout | hP
      · rcases List.mem_append.mp hout with hout | hlast
        · exact .inl hout
        · rw [List.mem_singleton.mp hlast]
          exact .inr hnode
      · exact .inr hP
    · exact .inr hP

/-- The recursion has one result. -/
theorem unique {out'' : List (α × ℕ)} (h : DepthFirst key next depth nodes out out')
    (h' : DepthFirst key next depth nodes out out'') : out' = out'' := by
  induction h generalizing out'' with
  | nil depth out =>
    cases h'
    rfl
  | skip hseen _ ih =>
    cases h' with
    | skip _ hrest => exact ih hrest
    | visit hnew _ _ =>
      obtain ⟨row, hrow, hkey⟩ := hseen
      exact absurd hkey (hnew row hrow)
  | visit hnew _ _ ihbelow ih =>
    cases h' with
    | skip hseen _ =>
      obtain ⟨row, hrow, hkey⟩ := hseen
      exact absurd hkey (hnew row hrow)
    | visit _ hbelow hrest =>
      obtain rfl := ihbelow hbelow
      exact ih hrest

/-- Only the nodes that the recursion can come to matter. -/
theorem congr {next' : α → List α} {P : α → Prop}
    (hnext : ∀ node, P node → ∀ below ∈ next node, P below)
    (hsame : ∀ node, P node → next' node = next node)
    (h : DepthFirst key next depth nodes out out') (hnodes : ∀ node ∈ nodes, P node) :
    DepthFirst key next' depth nodes out out' := by
  induction h with
  | nil depth out => exact .nil depth out
  | skip hseen _ ih =>
    exact .skip hseen (ih fun node hnode => hnodes node (List.mem_cons_of_mem _ hnode))
  | visit hnew _ _ ihbelow ih =>
    have hnode := hnodes _ List.mem_cons_self
    refine .visit hnew ?_ (ih fun node hnode => hnodes node (List.mem_cons_of_mem _ hnode))
    rw [hsame _ hnode]
    exact ihbelow (hnext _ hnode)

end DepthFirst

/-! ## The shape of a listing -/

/-- Some of the nodes of a list in their order, each at this depth and followed by the same one level
deeper for the nodes below it. -/
inductive Forest (next : α → List α) : ℕ → List α → List (α × ℕ) → Prop where
  | nil (depth : ℕ) : Forest next depth [] []
  | skip {depth : ℕ} {node : α} {rest : List α} {rows : List (α × ℕ)}
      (hrest : Forest next depth rest rows) : Forest next depth (node :: rest) rows
  | node {depth : ℕ} {node : α} {rest : List α} {below rows : List (α × ℕ)}
      (hbelow : Forest next (depth + 1) (next node) below) (hrest : Forest next depth rest rows) :
      Forest next depth (node :: rest) ((node, depth) :: (below ++ rows))

theorem DepthFirst.forest {depth : ℕ} {nodes : List α} {out out' : List (α × ℕ)}
    (h : DepthFirst key next depth nodes out out') :
    ∃ rows, out' = out ++ rows ∧ Forest next depth nodes rows := by
  induction h with
  | nil depth out => exact ⟨[], (List.append_nil out).symm, .nil depth⟩
  | skip _ _ ih =>
    obtain ⟨rows, hout', hrows⟩ := ih
    exact ⟨rows, hout', .skip hrows⟩
  | visit _ _ _ ihbelow ih =>
    obtain ⟨below, hmid, hbelow⟩ := ihbelow
    obtain ⟨rows, hout', hrows⟩ := ih
    refine ⟨_, ?_, .node hbelow hrows⟩
    rw [hout', hmid]
    simp only [List.append_assoc, List.cons_append, List.nil_append]

namespace Forest
variable {depth : ℕ} {nodes : List α} {rows : List (α × ℕ)}

theorem depth_le (h : Forest next depth nodes rows) : ∀ row ∈ rows, depth ≤ row.2 := by
  induction h with
  | nil depth => exact fun _ hrow => absurd hrow List.not_mem_nil
  | skip _ ih => exact ih
  | node _ _ ihbelow ih =>
    intro row hrow
    rcases List.mem_cons.mp hrow with rfl | hrow
    · exact le_rfl
    · rcases List.mem_append.mp hrow with hrow | hrow
      · exact (Nat.le_succ _).trans (ihbelow row hrow)
      · exact ih row hrow

theorem head_depth (h : Forest next depth nodes rows) : ∀ row ∈ rows.head?, row.2 = depth := by
  induction h with
  | nil depth => exact fun _ hrow => by cases hrow
  | skip _ ih => exact ih
  | node _ _ _ _ =>
    intro row hrow
    cases hrow
    rfl

/-- The rows at the top of a forest are nodes of its list, in their order. -/
theorem tops (h : Forest next depth nodes rows) :
    ((rows.filter fun row => row.2 = depth).map Prod.fst).Sublist nodes := by
  induction h with
  | nil depth => exact .slnil
  | skip _ ih => exact ih.cons _
  | @node depth node rest below rows hbelow _ _ ih =>
    have hnone : (below.filter fun row => row.2 = depth) = [] :=
      List.filter_eq_nil_iff.mpr fun row hrow => by
        have := hbelow.depth_le row hrow
        simp only [decide_eq_true_eq]
        omega
    rw [List.filter_cons_of_pos (by simp), List.filter_append, hnone, List.nil_append]
    exact ih.cons_cons _

/-- The nearest row above that is one level less deep. -/
def parentOf (before : List (α × ℕ)) (depth : ℕ) : Option (α × ℕ) :=
  before.reverse.find? fun row => row.2 + 1 = depth

theorem parentOf_append {before : List (α × ℕ)} {depth : ℕ} {parent : α × ℕ}
    (earlier : List (α × ℕ)) (h : parentOf before depth = some parent) :
    parentOf (earlier ++ before) depth = some parent := by
  unfold parentOf at h ⊢
  rw [List.reverse_append, List.find?_append, h]
  rfl

theorem parentOf_cons {before : List (α × ℕ)} {row : α × ℕ}
    (h : ∀ other ∈ before, row.2 + 1 ≤ other.2) :
    parentOf (row :: before) (row.2 + 1) = some row := by
  unfold parentOf
  rw [List.reverse_cons, List.find?_append]
  have hnone : (before.reverse.find? fun other => decide (other.2 + 1 = row.2 + 1)) = none := by
    refine List.find?_eq_none.mpr fun other hother => ?_
    have := h other (List.mem_reverse.mp hother)
    simp only [decide_eq_true_eq]
    omega
  rw [hnone]
  simp

/-- A row is at the top, or the nearest row above it that is one level less deep has it below. -/
theorem parent {row : α × ℕ} {before after : List (α × ℕ)} (h : Forest next depth nodes rows)
    (hrows : rows = before ++ row :: after) :
    (row.2 = depth ∧ row.1 ∈ nodes) ∨
      ∃ parent, parentOf before row.2 = some parent ∧ row.1 ∈ next parent.1 := by
  induction h generalizing before after with
  | nil depth => exact absurd hrows (by simp)
  | skip _ ih => exact (ih hrows).imp_left fun h => ⟨h.1, List.mem_cons_of_mem _ h.2⟩
  | @node depth node rest below rows hbelow hrest ihbelow ih =>
    cases before with
    | nil =>
      obtain ⟨rfl, -⟩ := List.cons.inj hrows
      exact .inl ⟨rfl, List.mem_cons_self⟩
    | cons first before =>
      obtain ⟨rfl, htail⟩ := List.cons.inj hrows
      rcases List.append_eq_append_iff.mp htail with ⟨middle, hbefore, hafter⟩ | ⟨middle, hb, ha⟩
      · -- the row stands among the later trees
        rcases ih hafter with hdepth | ⟨parent, hparent, hmem⟩
        · exact .inl ⟨hdepth.1, List.mem_cons_of_mem _ hdepth.2⟩
        · refine .inr ⟨parent, ?_, hmem⟩
          rw [hbefore, ← List.cons_append]
          exact parentOf_append _ hparent
      · cases middle with
        | nil =>
          have hback : rows = [] ++ row :: after := ha.symm
          rcases ih hback with hdepth | ⟨parent, hparent, -⟩
          · exact .inl ⟨hdepth.1, List.mem_cons_of_mem _ hdepth.2⟩
          · cases hparent
        | cons row' middle =>
          -- the row stands below the first node
          obtain ⟨rfl, -⟩ := List.cons.inj ha
          rcases ihbelow hb with ⟨hdepth, hmem⟩ | ⟨parent, hparent, hmem⟩
          · refine .inr ⟨(node, depth), ?_, hmem⟩
            rw [hdepth]
            refine parentOf_cons fun other hother => ?_
            exact hbelow.depth_le other (hb ▸ List.mem_append_left _ hother)
          · exact .inr ⟨parent, parentOf_append [_] hparent, hmem⟩

/-! ## What stands directly beneath a row -/

/-- The rows one level deeper, up to the next row that is not deeper. -/
def beneath (row : α × ℕ) (after : List (α × ℕ)) : List (α × ℕ) :=
  (after.takeWhile fun other => row.2 < other.2).filter fun other => other.2 = row.2 + 1

theorem beneath_append {row : α × ℕ} {after later : List (α × ℕ)}
    (h : ∀ other ∈ later.head?, other.2 ≤ row.2) :
    beneath row (after ++ later) = beneath row after := by
  have hlater : (later.takeWhile fun other => row.2 < other.2) = [] := by
    cases later with
    | nil => rfl
    | cons other later =>
      have := h other rfl
      exact List.takeWhile_cons_of_neg (by simpa using this)
  unfold beneath
  rw [List.takeWhile_append]
  split
  · next hall =>
    rw [hlater, List.append_nil]
    exact congrArg _ ((List.takeWhile_prefix _).eq_of_length hall).symm
  · rfl

/-- Directly beneath a row stand nodes that it has below, in their order. -/
theorem beneath_sublist {row : α × ℕ} {before after : List (α × ℕ)}
    (h : Forest next depth nodes rows) (hrows : rows = before ++ row :: after) :
    ((beneath row after).map Prod.fst).Sublist (next row.1) := by
  induction h generalizing before after with
  | nil depth => exact absurd hrows (by simp)
  | skip _ ih => exact ih hrows
  | @node depth node rest below rows hbelow hrest ihbelow ih =>
    have hlater : ∀ other ∈ rows.head?, other.2 = depth := hrest.head_depth
    cases before with
    | nil =>
      obtain ⟨rfl, rfl⟩ := List.cons.inj hrows
      rw [beneath_append fun other hother => (hlater other hother).le]
      have hall : (below.takeWhile fun other => depth < other.2) = below :=
        List.takeWhile_eq_self_iff.mpr fun other hother => by
          exact decide_eq_true (Nat.lt_of_succ_le (hbelow.depth_le other hother))
      unfold beneath
      rw [hall]
      exact hbelow.tops
    | cons first before =>
      have htail := (List.cons.inj hrows).2
      rcases List.append_eq_append_iff.mp htail with ⟨middle, -, hafter⟩ | ⟨middle, hb, ha⟩
      · exact ih hafter
      · cases middle with
        | nil =>
          have hback : rows = [] ++ row :: after := ha.symm
          exact ih hback
        | cons row' middle =>
          obtain ⟨rfl, rfl⟩ := List.cons.inj ha
          have hdeep := hbelow.depth_le row (hb ▸ List.mem_append_right _ List.mem_cons_self)
          have hle : ∀ other ∈ rows.head?, other.2 ≤ row.2 := fun other hother => by
            rw [hlater other hother]
            omega
          show ((beneath row (middle ++ rows)).map Prod.fst).Sublist _
          rw [beneath_append hle]
          exact ihbelow hb

end Forest
end Cxx
