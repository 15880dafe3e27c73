import Mtop.Library.CyclicSearch
import Mtop.Ui.Paging

/-! The two search routines visit the rows of their table cyclically from the selected one. -/
namespace Mtop
open Cxx
set_option autoImplicit false

theorem cyclicIndices_eq_cyclicOrder (base : ℤ) (size : ℕ) :
    cyclicIndices base size = cyclicOrder base size := rfl

/-! ## Rows that match -/

/-- Whether there is a row at an index and it matches. -/
def rowHit {α : Type} (rows : List α) (hit : α → Bool) (index : ℤ) : Bool :=
  (rowAt rows index).any hit

section Hits
variable {α : Type} {rows : List α} {hit : α → Bool}

theorem rowHit_iff {index : ℤ} :
    rowHit rows hit index = true ↔ ∃ row, rowAt rows index = some row ∧ hit row = true := by
  unfold rowHit
  rw [Option.any_eq_true]

theorem mem_of_rowAt {index : ℤ} {row : α} (h : rowAt rows index = some row) : row ∈ rows := by
  unfold rowAt at h
  split at h
  · exact List.mem_of_getElem? h
  · cases h

theorem rowHit_of_mem {row : α} (hrow : row ∈ rows) (hhit : hit row = true) :
    ∃ index : ℤ, 0 ≤ index ∧ index < rows.length ∧ rowHit rows hit index = true := by
  obtain ⟨n, hn, hget⟩ := List.getElem_of_mem hrow
  refine ⟨n, by omega, by omega, rowHit_iff.mpr ⟨row, ?_, hhit⟩⟩
  rw [rowAt_natCast, List.getElem?_eq_getElem hn, hget]

/-- A search over the rows: where a row matches it lands on the first match after the base, and
otherwise it stays. -/
structure SearchesRows (rows : List α) (hit : α → Bool) (base : ℤ) (landsOn : ℤ → Prop)
    (stays : Prop) : Prop where
  inRange : ∀ index ∈ cyclicIndices base rows.length, 0 ≤ index ∧ index < rows.length
  found : (∃ row ∈ rows, hit row = true) →
    ∃ index, NextHit (rowHit rows hit) base rows.length index ∧
      (index = base → ∀ other : ℤ, 0 ≤ other → other < rows.length →
        rowHit rows hit other = true → other = base) ∧ landsOn index
  unfound : (∀ row ∈ rows, hit row = false) → stays

/-- The loop of either routine, with what it does on a hit and at the end. -/
theorem searchesRows_of_find? {base : ℤ} (hbase : -1 ≤ base ∧ base < rows.length)
    {landsOn : ℤ → Prop} {stays : Prop}
    (hsome : ∀ index, (cyclicIndices base rows.length).find? (rowHit rows hit) = some index →
      landsOn index)
    (hnone : (cyclicIndices base rows.length).find? (rowHit rows hit) = none → stays) :
    SearchesRows rows hit base landsOn stays where
  inRange index hindex := (mem_cyclicOrder hbase).mp hindex
  found := by
    rintro ⟨row, hrow, hhit⟩
    cases hfind : (cyclicIndices base rows.length).find? (rowHit rows hit) with
    | none =>
      obtain ⟨index, hlow, hhigh, hindex⟩ := rowHit_of_mem hrow hhit
      rw [cyclicIndices_eq_cyclicOrder] at hfind
      rw [(find?_cyclicOrder_eq_none hbase).mp hfind index hlow hhigh] at hindex
      cases hindex
    | some index =>
      have hnext := (find?_cyclicOrder hbase).mp hfind
      refine ⟨index, hnext, fun heq other hlow hhigh hother => ?_, hsome index hfind⟩
      subst heq
      exact hnext.only hlow hhigh hother
  unfound hmiss := by
    refine hnone ((find?_cyclicOrder_eq_none hbase).mpr fun index _ _ => ?_)
    refine Bool.eq_false_iff.mpr fun hindex => ?_
    obtain ⟨row, hrow, hhit⟩ := rowHit_iff.mp hindex
    rw [hmiss row (mem_of_rowAt hrow)] at hhit
    cases hhit

end Hits

/-! ## The process table -/

/-- Where no pid occurs twice, the selected row is the one with the remembered pid. -/
theorem selectedProcessIndex_of_pidAt {rows : List ProcessRow} (hpids : (rowPids rows).Nodup)
    {index pid : ℤ} (h : pidAt rows index = some pid) :
    selectedProcessIndex rows (some pid) = index := by
  have hmem : pid ∈ rowPids rows := mem_of_rowAt ((rowAt_rowPids rows index).trans h)
  have hselected := pidAt_selectedProcessIndex.mpr ⟨rfl, hmem⟩
  obtain ⟨n, hn⟩ := Int.eq_ofNat_of_zero_le (pidAt_lt h).1
  obtain ⟨m, hm⟩ := Int.eq_ofNat_of_zero_le (pidAt_lt hselected).1
  rw [hm, ← rowAt_rowPids, rowAt_natCast] at hselected
  rw [hn, ← rowAt_rowPids, rowAt_natCast] at h
  have hlt := (List.getElem?_eq_some_iff.mp hselected).1
  rw [hm, hn, (List.getElem?_inj hlt hpids).mp (hselected.trans h.symm)]

theorem neg_one_le_selectedProcessIndex (rows : List ProcessRow) (selectedPid : Option ℤ) :
    -1 ≤ selectedProcessIndex rows selectedPid := by
  unfold selectedProcessIndex
  split
  · exact le_rfl
  · split <;> omega

namespace UiState
variable (state : UiState) (now : ℕ)

theorem applySearchRequest_pending (rows : List ProcessRow) :
    (state.applySearchRequest now rows).searchPending = false := by
  unfold applySearchRequest
  split
  · rename_i hpending
    exact Bool.not_eq_true' .. ▸ hpending
  · dsimp only
    split
    · rfl
    · split <;> rfl

theorem applyAlphaSearchRequest_pending (alpha : AlphaModel) :
    (state.applyAlphaSearchRequest now alpha).searchPending = false := by
  unfold applyAlphaSearchRequest
  split
  · rename_i hpending
    exact Bool.not_eq_true' .. ▸ hpending
  · dsimp only
    split
    · rfl
    · split <;> rfl

/-- Without a query, or without a request, nothing is selected anew. -/
theorem applySearchRequest_idle (rows : List ProcessRow)
    (h : state.searchPending = false ∨ state.search = []) :
    (state.applySearchRequest now rows).selectedPid = state.selectedPid := by
  unfold applySearchRequest
  split
  · rfl
  · rename_i hpending
    have hsearch : state.search = [] := h.resolve_left fun hfalse => hpending (by rw [hfalse]; rfl)
    dsimp only
    rw [if_pos (by rw [hsearch]; rfl)]

theorem applyAlphaSearchRequest_idle (alpha : AlphaModel)
    (h : state.searchPending = false ∨ state.search = []) :
    (state.applyAlphaSearchRequest now alpha).workloadIndex = state.workloadIndex := by
  unfold applyAlphaSearchRequest
  split
  · rfl
  · rename_i hpending
    have hsearch : state.search = [] := h.resolve_left fun hfalse => hpending (by rw [hfalse]; rfl)
    dsimp only
    rw [if_pos (by rw [hsearch]; rfl)]

/-- A request with a query is the search loop, which has no round to go without rows. -/
theorem applySearchRequest_loop (rows : List ProcessRow) (hpending : state.searchPending = true)
    (hsearch : state.search ≠ []) :
    (state.applySearchRequest now rows).selectedPid =
      match (cyclicIndices (selectedProcessIndex rows state.selectedPid) rows.length).find?
          (rowHit rows fun row => processMatchesQuery row.process state.search) with
      | some index => pidAt rows index
      | none => state.selectedPid := by
  unfold applySearchRequest
  rw [if_neg (by rw [hpending]; exact Bool.false_ne_true)]
  dsimp only
  by_cases hrows : rows = []
  · rw [if_pos (by simp [hrows]), hrows]
    rfl
  · rw [if_neg (by simp [hsearch, hrows])]
    unfold rowHit
    generalize List.find? _ _ = found
    cases found <;> rfl

theorem applyAlphaSearchRequest_loop (alpha : AlphaModel) (hpending : state.searchPending = true)
    (hsearch : state.search ≠ []) :
    (state.applyAlphaSearchRequest now alpha).workloadIndex =
      match (cyclicIndices (clamp state.workloadIndex (-1) (alpha.processRows.length - 1))
          alpha.processRows.length).find?
          (rowHit alpha.processRows fun row => aiProcessMatchesQuery row state.search) with
      | some index => index
      | none => state.workloadIndex := by
  unfold applyAlphaSearchRequest
  rw [if_neg (by rw [hpending]; exact Bool.false_ne_true)]
  dsimp only
  by_cases hrows : alpha.processRows = []
  · rw [if_pos (by simp [hrows]), hrows]
    rfl
  · rw [if_neg (by simp [hsearch, hrows])]
    unfold rowHit
    generalize List.find? _ _ = found
    cases found <;> rfl

/-- Beta: the selection moves to the first match after the selected row. -/
theorem applySearchRequest_searches {rows : List ProcessRow} (hpids : (rowPids rows).Nodup)
    (hpending : state.searchPending = true) (hsearch : state.search ≠ []) :
    SearchesRows rows (fun row => processMatchesQuery row.process state.search)
      (selectedProcessIndex rows state.selectedPid)
      (fun index =>
        (state.applySearchRequest now rows).selectedPid = pidAt rows index ∧
          selectedProcessIndex rows (state.applySearchRequest now rows).selectedPid = index)
      ((state.applySearchRequest now rows).selectedPid = state.selectedPid) := by
  have hbase := And.intro (neg_one_le_selectedProcessIndex rows state.selectedPid)
    (selectedProcessIndex_lt rows state.selectedPid)
  refine searchesRows_of_find? hbase (fun index hfind => ?_) fun hfind => ?_
  · have hnext := (find?_cyclicOrder hbase).mp hfind
    obtain ⟨row, hrow, -⟩ := rowHit_iff.mp hnext.hits
    have hpid : pidAt rows index = some row.process.pid := congrArg (Option.map _) hrow
    have hloop := state.applySearchRequest_loop now rows hpending hsearch
    rw [hfind] at hloop
    refine ⟨hloop, ?_⟩
    rw [hloop.trans hpid]
    exact selectedProcessIndex_of_pidAt hpids hpid
  · rw [state.applySearchRequest_loop now rows hpending hsearch, hfind]

/-- Alpha: the index moves to the first match after the index put into range. -/
theorem applyAlphaSearchRequest_searches (alpha : AlphaModel)
    (hpending : state.searchPending = true) (hsearch : state.search ≠ []) :
    SearchesRows alpha.processRows (fun row => aiProcessMatchesQuery row state.search)
      (clamp state.workloadIndex (-1) (alpha.processRows.length - 1))
      (fun index => (state.applyAlphaSearchRequest now alpha).workloadIndex = index)
      ((state.applyAlphaSearchRequest now alpha).workloadIndex = state.workloadIndex) := by
  have hclamp := clamp_mem (show (-1 : ℤ) ≤ alpha.processRows.length - 1 by omega)
    state.workloadIndex
  refine searchesRows_of_find? ⟨hclamp.1, by omega⟩ (fun index hfind => ?_) fun hfind => ?_
  · rw [state.applyAlphaSearchRequest_loop now alpha hpending hsearch, hfind]
  · rw [state.applyAlphaSearchRequest_loop now alpha hpending hsearch, hfind]

end UiState

/-- Both searches go around their rows once: on a hit the selection moves to the first match
strictly after the selected row, and in every other case it stays; the request is answered. -/
theorem search_cycles (state : UiState) (now : ℕ) (rows : List ProcessRow) (alpha : AlphaModel)
    (hpids : (rowPids rows).Nodup) :
    ((state.applySearchRequest now rows).searchPending = false ∧
      (state.searchPending = true → state.search ≠ [] →
        SearchesRows rows (fun row => processMatchesQuery row.process state.search)
          (selectedProcessIndex rows state.selectedPid)
          (fun index =>
            (state.applySearchRequest now rows).selectedPid = pidAt rows index ∧
              selectedProcessIndex rows (state.applySearchRequest now rows).selectedPid = index)
          ((state.applySearchRequest now rows).selectedPid = state.selectedPid)) ∧
      (state.searchPending = false ∨ state.search = [] →
        (state.applySearchRequest now rows).selectedPid = state.selectedPid)) ∧
    (state.applyAlphaSearchRequest now alpha).searchPending = false ∧
      (state.searchPending = true → state.search ≠ [] →
        SearchesRows alpha.processRows (fun row => aiProcessMatchesQuery row state.search)
          (clamp state.workloadIndex (-1) (alpha.processRows.length - 1))
          (fun index => (state.applyAlphaSearchRequest now alpha).workloadIndex = index)
          ((state.applyAlphaSearchRequest now alpha).workloadIndex = state.workloadIndex)) ∧
      (state.searchPending = false ∨ state.search = [] →
        (state.applyAlphaSearchRequest now alpha).workloadIndex = state.workloadIndex) :=
  ⟨⟨state.applySearchRequest_pending now rows, state.applySearchRequest_searches now hpids,
      state.applySearchRequest_idle now rows⟩,
    state.applyAlphaSearchRequest_pending now alpha,
    state.applyAlphaSearchRequest_searches now alpha,
    state.applyAlphaSearchRequest_idle now alpha⟩

/-- Three rows, the outer two of them matching `"train"`. -/
def trainRows : List ProcessRow :=
  [⟨{ pid := 10, name := str "train" }, 0, false, false⟩,
    ⟨{ pid := 20, name := str "zsh" }, 0, false, false⟩,
    ⟨{ pid := 30, name := str "Trainer" }, 0, false, false⟩]

def trainState : UiState :=
  { search := str "train", searchPending := true, selectedPid := some 30 }

/-- From the last row the search comes around to the first. -/
theorem search_cycles_train :
    (trainState.applySearchRequest 0 trainRows).selectedPid = some 10 ∧
      SearchesRows trainRows (fun row => processMatchesQuery row.process trainState.search)
        (selectedProcessIndex trainRows trainState.selectedPid)
        (fun index =>
          (trainState.applySearchRequest 0 trainRows).selectedPid = pidAt trainRows index ∧
            selectedProcessIndex trainRows
              (trainState.applySearchRequest 0 trainRows).selectedPid = index)
        ((trainState.applySearchRequest 0 trainRows).selectedPid = trainState.selectedPid) :=
  ⟨by decide +kernel,
    (search_cycles trainState 0 trainRows {} (by decide)).1.2.1 rfl (by decide +kernel)⟩

end Mtop
