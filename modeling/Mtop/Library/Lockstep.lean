import Mtop.Library.Run
import Mathlib.Data.List.Forall2

/-! Runs one after the other, and two machines that take related moves from related states: related runs, and the same output. -/
namespace Machine
set_option autoImplicit false

theorem run_append {State Move : Type} (step : Move → State → Option State) (ms ns : List Move)
    (s : State) : run step (ms ++ ns) s = (run step ms s).bind (run step ns) := by
  induction ms generalizing s with
  | nil => rfl
  | cons m ms ih =>
    rw [List.cons_append, run, run, Option.bind_assoc]
    exact congrArg _ (funext ih)

section Trace
variable {State Move Out : Type} (step : Move → State → Option State)
  (emit : State → Move → List Out)

/-- What the enabled moves of a run put out, one after the other. -/
def trace : List Move → State → List Out
  | [], _ => []
  | m :: ms, s =>
    match step m s with
    | none => []
    | some s' => emit s m ++ trace ms s'

theorem trace_cons {m : Move} {ms : List Move} {s s' : State} (h : step m s = some s') :
    trace step emit (m :: ms) s = emit s m ++ trace step emit ms s' := by
  rw [trace, h]

end Trace

section Lockstep
variable {State Move State' Move' Out : Type} {step : Move → State → Option State}
  {step' : Move' → State' → Option State'} {emit : State → Move → List Out}
  {emit' : State' → Move' → List Out} {R : State → State' → Prop} {M : Move → Move' → Prop}
  {good : State → Move → Prop}

/-- A run of good steps is matched move by move. -/
theorem run_lockstep
    (hstep : ∀ s s' m m' t, R s s' → M m m' → good s m → step m s = some t →
      ∃ t', step' m' s' = some t' ∧ R t t')
    (hemit : ∀ s s' m m', R s s' → M m m' → good s m → emit s m = emit' s' m')
    {ms : List Move} {ms' : List Move'} (hms : List.Forall₂ M ms ms') {s t : State} {s' : State'}
    (hs : R s s') (hgood : Always step good ms s) (hrun : run step ms s = some t) :
    (∃ t', run step' ms' s' = some t' ∧ R t t') ∧
      trace step emit ms s = trace step' emit' ms' s' := by
  induction hms generalizing s s' with
  | nil =>
    cases hrun
    exact ⟨⟨s', rfl, hs⟩, rfl⟩
  | @cons m m' ms ms' hm _ ih =>
    obtain ⟨u, hu, hrest⟩ := run_cons hrun
    obtain ⟨u', hu', hR⟩ := hstep s s' m m' u hs hm hgood.1 hu
    obtain ⟨⟨t', ht', hlast⟩, htrace⟩ := ih hR (hgood.2 u hu) hrest
    refine ⟨⟨t', ?_, hlast⟩, ?_⟩
    · rw [run, hu']
      exact ht'
    · rw [trace_cons step emit hu, trace_cons step' emit' hu', hemit s s' m m' hs hm hgood.1, htrace]

end Lockstep
end Machine
