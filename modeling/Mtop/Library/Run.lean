import Mathlib.Logic.Basic

/-! Runs of a machine given by a partial step function: a move that is not enabled has no step.
An invariant kept by the good steps and a loss that no step repairs decide, for every run, whether
all its steps were good. -/
namespace Machine
set_option autoImplicit false

variable {State Move : Type} (step : Move → State → Option State)

/-- The state after a list of moves, all of them enabled. -/
def run : List Move → State → Option State
  | [], s => some s
  | m :: ms, s => (step m s).bind (run ms)

/-- Every step of the run is good in the state where it is made. -/
def Always (good : State → Move → Prop) : List Move → State → Prop
  | [], _ => True
  | m :: ms, s => good s m ∧ ∀ s', step m s = some s' → Always good ms s'

variable {step} {good : State → Move → Prop} {Inv Lost : State → Prop}

theorem run_cons {m : Move} {ms : List Move} {s final : State}
    (h : run step (m :: ms) s = some final) :
    ∃ s', step m s = some s' ∧ run step ms s' = some final :=
  Option.bind_eq_some_iff.mp h

/-- What every step keeps, every run keeps. -/
theorem run_keeps (hkeep : ∀ s m s', Inv s → step m s = some s' → Inv s') {ms : List Move}
    {s final : State} (hs : Inv s) (h : run step ms s = some final) : Inv final := by
  induction ms generalizing s with
  | nil =>
    cases h
    exact hs
  | cons m ms ih =>
    obtain ⟨s', hstep, hrest⟩ := run_cons h
    exact ih (hkeep s m s' hs hstep) hrest

/-- Good steps keep the invariant, and one bad step loses it for the rest of the run. -/
theorem run_dichotomy (hgood : ∀ s m s', Inv s → good s m → step m s = some s' → Inv s')
    (hbad : ∀ s m s', Inv s → ¬ good s m → step m s = some s' → Lost s')
    (hlost : ∀ s m s', Lost s → step m s = some s' → Lost s') {ms : List Move} {s final : State}
    (hs : Inv s) (h : run step ms s = some final) :
    (Always step good ms s ∧ Inv final) ∨ (¬ Always step good ms s ∧ Lost final) := by
  induction ms generalizing s with
  | nil =>
    cases h
    exact .inl ⟨trivial, hs⟩
  | cons m ms ih =>
    obtain ⟨s', hstep, hrest⟩ := run_cons h
    by_cases hm : good s m
    · rcases ih (hgood s m s' hs hm hstep) hrest with ⟨ha, hi⟩ | ⟨ha, hl⟩
      · refine .inl ⟨⟨hm, fun s1 h1 => ?_⟩, hi⟩
        rw [hstep] at h1
        cases h1
        exact ha
      · exact .inr ⟨fun hall => ha (hall.2 s' hstep), hl⟩
    · exact .inr ⟨fun hall => hm hall.1, run_keeps hlost (hbad s m s' hs hm hstep) hrest⟩

/-- A step that is good under an invariant of all steps is good in every run. -/
theorem always_of_inv (hkeep : ∀ s m s', Inv s → step m s = some s' → Inv s')
    (h : ∀ s m, Inv s → good s m) (ms : List Move) {s : State} (hs : Inv s) :
    Always step good ms s := by
  induction ms generalizing s with
  | nil => trivial
  | cons m ms ih => exact ⟨h s m hs, fun s' hstep => ih (hkeep s m s' hs hstep)⟩

/-- Two judgements of steps that agree under an invariant judge every run alike. -/
theorem always_congr {good' : State → Move → Prop}
    (hkeep : ∀ s m s', Inv s → step m s = some s' → Inv s')
    (hiff : ∀ s m, Inv s → (good s m ↔ good' s m)) (ms : List Move) {s : State} (hs : Inv s) :
    Always step good ms s ↔ Always step good' ms s := by
  induction ms generalizing s with
  | nil => exact Iff.rfl
  | cons m ms ih =>
    exact and_congr (hiff s m hs)
      (forall_congr' fun s' => forall_congr' fun h => ih (hkeep s m s' hs h))

/-- Good steps keep the invariant, and under it they are good in the other sense too. -/
theorem Always.under {good' : State → Move → Prop}
    (hkeep : ∀ s m s', Inv s → good s m → step m s = some s' → Inv s')
    (h : ∀ s m, Inv s → good s m → good' s m) {ms : List Move} {s : State} (hs : Inv s)
    (hall : Always step good ms s) : Always step good' ms s := by
  induction ms generalizing s with
  | nil => trivial
  | cons m ms ih =>
    refine ⟨h s m hs hall.1, fun s' hstep => ?_⟩
    exact ih (hkeep s m s' hs hall.1 hstep) (hall.2 s' hstep)

theorem Always.and {good' : State → Move → Prop} {ms : List Move} {s : State}
    (hall : Always step good ms s) (hall' : Always step good' ms s) :
    Always step (fun s m => good s m ∧ good' s m) ms s := by
  induction ms generalizing s with
  | nil => trivial
  | cons m ms ih =>
    exact ⟨⟨hall.1, hall'.1⟩, fun s' hstep => ih (hall.2 s' hstep) (hall'.2 s' hstep)⟩

/-- The step after a run is judged in the state where the run ends. -/
theorem Always.last {ms : List Move} {m : Move} {s final : State}
    (hall : Always step good (ms ++ [m]) s) (h : run step ms s = some final) : good final m := by
  induction ms generalizing s with
  | nil =>
    cases h
    exact hall.1
  | cons m' ms ih =>
    obtain ⟨s', hstep, hrest⟩ := run_cons h
    exact ih (hall.2 s' hstep) hrest

end Machine
