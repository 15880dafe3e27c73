import Mtop.Ui.TreeRows
import Mathlib.Logic.Relation

/-! Collapsed rows of the tree view. The walk stops below them, but the last pass over all processes
comes to everything the walk has left out. -/
namespace Mtop
open Cxx
set_option autoImplicit false

/-- A link of the tree: both ends match the filter. -/
def ParentIn (filtered : List ProcessSnapshot) (parent child : ProcessSnapshot) : Prop :=
  parent ∈ filtered ∧ child ∈ filtered ∧ child.parentPid = parent.pid

/-- A collapsed process lies above this one. -/
def HiddenByCollapse (filtered : List ProcessSnapshot) (collapsedPids : Finset ℤ)
    (process : ProcessSnapshot) : Prop :=
  ∃ ancestor, Relation.TransGen (ParentIn filtered) ancestor process ∧ ancestor.pid ∈ collapsedPids

/-- The rows are those of the fully expanded tree, in their order and at their depths, without the
ones below a collapsed process. -/
structure CollapseHides (σ : StdSort) (snapshot : SystemSnapshot) (state : UiState) : Prop where
  shown : ∀ process, process ∈ (buildProcessRows σ snapshot state).map (·.process) ↔
    process ∈ filteredProcesses snapshot state ∧
      ¬ HiddenByCollapse (filteredProcesses snapshot state) state.collapsedPids process
  expanded : ((buildProcessRows σ snapshot state).map (·.entry)).Sublist
    ((buildProcessRows σ snapshot { state with collapsedPids := ∅ }).map (·.entry))

section Rows
variable {σ : StdSort} {snapshot : SystemSnapshot} {state : UiState}

/-- Where nothing collapsed has children, the tree is the fully expanded one. -/
theorem treeRows_expanded (htree : state.treeMode = true)
    (h : ∀ parent child, ParentIn (filteredProcesses snapshot state) parent child →
      parent.pid ∉ state.collapsedPids) :
    (buildProcessRows σ snapshot state).map (·.entry) =
      (buildProcessRows σ snapshot { state with collapsedPids := ∅ }).map (·.entry) := by
  have hrun := treeRows_depthFirst σ snapshot state htree
  have hrun' := treeRows_depthFirst σ snapshot { state with collapsedPids := ∅ } htree
  refine (hrun.congr (P := (· ∈ filteredProcesses snapshot state))
    (fun _ _ child hchild => (mem_shownChildren hchild).1) (fun process hprocess => ?_)
    fun process hp => (List.mem_append.mp hp).elim (treeRoots_subset process) id).unique hrun'
  unfold shownChildren
  rw [if_neg (Finset.notMem_empty _)]
  split
  · next hcollapsed =>
    refine List.eq_nil_iff_forall_not_mem.mpr fun child hchild => ?_
    obtain ⟨hmem, hparent⟩ := mem_childrenOf.mp hchild
    exact h process child ⟨hprocess, hmem, hparent⟩ hcollapsed
  · rfl

/-- Collapsing hides the subtrees exactly where it hides nothing: no collapsed process has children
that match the filter. -/
theorem collapse_hides_iff (σ : StdSort) (snapshot : SystemSnapshot) (state : UiState)
    (hpids : (snapshot.processes.map (·.pid)).Nodup) (htree : state.treeMode = true) :
    CollapseHides σ snapshot state ↔
      ∀ parent child, ParentIn (filteredProcesses snapshot state) parent child →
        parent.pid ∉ state.collapsedPids := by
  have hperm := treeRows_perm σ hpids htree
  constructor
  · intro h parent child hlink hcollapsed
    have hshown := (h.shown child).mp (hperm.mem_iff.mpr hlink.2.1)
    exact hshown.2 ⟨parent, .single hlink, hcollapsed⟩
  · intro h
    refine ⟨fun process => ?_, ?_⟩
    · rw [hperm.mem_iff, and_iff_left]
      rintro ⟨ancestor, hpath, hcollapsed⟩
      obtain ⟨child, hlink, -⟩ := Relation.TransGen.head'_iff.mp hpath
      exact h ancestor child hlink hcollapsed
    · rw [treeRows_expanded htree h]

end Rows

/-- A parent with a child; the parent is collapsed. -/
def familySnapshot : SystemSnapshot where
  processes := [{ pid := 1, parentPid := 0 }, { pid := 2, parentPid := 1 }]

def collapsedState : UiState := { treeMode := true, collapsedPids := {1} }

theorem collapse_hides_leaf :
    CollapseHides .insertion familySnapshot { treeMode := true, collapsedPids := {2} } ↔
      ∀ parent child, ParentIn (filteredProcesses familySnapshot
        { treeMode := true, collapsedPids := {2} }) parent child → parent.pid ∉ ({2} : Finset ℤ) :=
  collapse_hides_iff _ _ _ (by decide) rfl

/-- The child is listed, at the left edge below its collapsed parent. -/
theorem collapse_does_not_hide :
    (∀ process, ¬ Relation.TransGen (ParentIn (filteredProcesses familySnapshot collapsedState))
        process process) ∧
      ¬ CollapseHides .insertion familySnapshot collapsedState := by
  have hfiltered : filteredProcesses familySnapshot collapsedState = familySnapshot.processes := rfl
  rw [hfiltered]
  constructor
  · have hlt : ∀ process ∈ familySnapshot.processes, process.parentPid < process.pid := by decide
    have hpath : ∀ a b, Relation.TransGen (ParentIn familySnapshot.processes) a b → a.pid < b.pid := by
      intro a b h
      induction h with
      | single hlink => exact hlink.2.2 ▸ hlt _ hlink.2.1
      | tail _ hlink ih => exact ih.trans (hlink.2.2 ▸ hlt _ hlink.2.1)
    exact fun process h => lt_irrefl _ (hpath process process h)
  · intro h
    have hlink : ParentIn familySnapshot.processes { pid := 1, parentPid := 0 }
        { pid := 2, parentPid := 1 } :=
      ⟨List.mem_cons_self, List.mem_cons_of_mem _ List.mem_cons_self, rfl⟩
    have hpids : (familySnapshot.processes.map (·.pid)).Nodup := by decide
    have htree : collapsedState.treeMode = true := rfl
    have hperm := treeRows_perm .insertion hpids htree
    rw [hfiltered] at hperm
    refine ((h.shown _).mp (hperm.mem_iff.mpr hlink.2.1)).2 ⟨_, .single (hfiltered ▸ hlink), ?_⟩
    decide

end Mtop
