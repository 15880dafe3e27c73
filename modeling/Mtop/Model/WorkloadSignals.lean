import Mtop.Model.ProcessSort
import Mtop.Model.WorkloadFamily

/-! The signal fields of a workload (core mix, I/O and power) against the values of its members: each
field is the first value that its rule does not replace. -/
namespace Mtop
open Cxx
set_option autoImplicit false

/-! ## The first value of a kind -/

/-- `field` is the first of the values with `p`; without one it is not of that kind either. -/
def First (p : Text → Bool) (values : List Text) (field : Text) : Prop :=
  match values.find? p with
  | some value => field = value
  | none => p field = false

theorem first_singleton (p : Text → Bool) (value : Text) : First p [value] value := by
  unfold First
  cases h : p value with
  | true => rw [List.find?_cons_of_pos h]
  | false =>
    rw [List.find?_cons_of_neg (by rw [h]; exact Bool.false_ne_true)]
    rfl

/-- A rule for replacing a value that keeps one of the kind and takes one as soon as it comes. -/
structure Settles (p : Text → Bool) (next : Text → Text → Text) : Prop where
  keeps : ∀ current value, p current = true → next current value = current
  takes : ∀ current value, p current = false → p value = true → next current value = value
  waits : ∀ current value, p current = false → p value = false → p (next current value) = false

theorem First.concat {p : Text → Bool} {next : Text → Text → Text} (hrule : Settles p next)
    {values : List Text} {field : Text} (h : First p values field) (value : Text) :
    First p (values ++ [value]) (next field value) := by
  unfold First at h ⊢
  rw [List.find?_append]
  cases hfound : values.find? p with
  | some found =>
    rw [hfound] at h
    have hkind : p field = true := by
      rw [show field = found from h]
      exact List.find?_some hfound
    exact (hrule.keeps field value hkind).trans h
  | none =>
    rw [hfound] at h
    have hfield : p field = false := h
    cases hvalue : p value with
    | true =>
      rw [List.find?_cons_of_pos hvalue]
      exact hrule.takes field value hfield hvalue
    | false =>
      rw [List.find?_cons_of_neg (by rw [hvalue]; exact Bool.false_ne_true)]
      exact hrule.waits field value hfield hvalue

/-! ## The rules of the three fields -/

/-- Not empty and not a placeholder. -/
def isReal (value : Text) : Bool := !isMissingValue value

/-- What `build_workloads` does not replace in the core mix. -/
def isKeptMix (value : Text) : Bool := value ≠ [] && value ≠ str "-"

theorem firstAvailableSignal_eq (current next : Text) :
    firstAvailableSignal current next =
      if isReal current then current else if next = [] then current else next := by
  have hmem : current ∈ [] :: ["-", "n/a", "root", "wait", "stale", "parse", "denied"].map str ↔
      isReal current = false := by
    unfold isReal isMissingValue
    simp only [List.map_cons, List.map_nil, List.mem_cons, List.not_mem_nil, or_false,
      Bool.not_eq_false', Bool.or_eq_true, decide_eq_true_eq]
    tauto
  unfold firstAvailableSignal
  cases hreal : isReal current with
  | true =>
    rw [if_neg fun h => Bool.false_ne_true ((hmem.mp h).symm.trans hreal)]
    rfl
  | false =>
    rw [if_pos (hmem.mpr hreal)]
    rfl

theorem firstAvailableSignal_settles : Settles isReal firstAvailableSignal where
  keeps current value h := by rw [firstAvailableSignal_eq, if_pos h]
  takes current value h hvalue := by
    have hne : value ≠ [] := by
      rintro rfl
      cases hvalue
    rw [firstAvailableSignal_eq, h, if_neg Bool.false_ne_true, if_neg hne]
  waits current value h hvalue := by
    rw [firstAvailableSignal_eq, h, if_neg Bool.false_ne_true]
    split
    · exact h
    · exact hvalue

/-- The rule for the core mix in `build_workloads`. -/
def nextMix (current value : Text) : Text :=
  if current = [] ∨ current = str "-" then value else current

theorem isKeptMix_eq_false {value : Text} :
    isKeptMix value = false ↔ value = [] ∨ value = str "-" := by
  unfold isKeptMix
  rw [Bool.and_eq_false_iff, decide_eq_false_iff_not, decide_eq_false_iff_not, not_not, not_not]

theorem nextMix_settles : Settles isKeptMix nextMix where
  keeps current value h := by
    unfold nextMix
    rw [if_neg fun hnone => ?_]
    rw [isKeptMix_eq_false.mpr hnone] at h
    cases h
  takes current value h _ := if_pos (isKeptMix_eq_false.mp h)
  waits current value h hvalue := by
    unfold nextMix
    rw [if_pos (isKeptMix_eq_false.mp h)]
    exact hvalue

/-! ## The fields of a group -/

section Accumulate
variable (group : Group) (item : DetectedProcess)

theorem accumulate_io : (accumulate (some group) item).workload.io =
    if group.workload.processes = [] then item.process.io
    else firstAvailableSignal group.workload.io item.process.io := by
  simp only [accumulate, Option.getD_some]
  split <;> split <;> rfl

theorem accumulate_power : (accumulate (some group) item).workload.power =
    if group.workload.processes = [] then item.process.power
    else firstAvailableSignal group.workload.power item.process.power := by
  simp only [accumulate, Option.getD_some]
  split <;> split <;> rfl

theorem accumulate_coreMix : (accumulate (some group) item).workload.coreMix =
    if group.workload.processes = [] then item.process.coreMix
    else nextMix group.workload.coreMix item.process.coreMix := by
  simp only [accumulate, Option.getD_some]
  split <;> split <;> rfl

end Accumulate

/-- A field that the first member seeds and a settling rule updates. -/
theorem groupOf_first {p : Text → Bool} {next : Text → Text → Text} (hrule : Settles p next)
    (field : WorkloadSnapshot → Text) (own : ProcessSnapshot → Text)
    (hfield : ∀ group item, field (accumulate (some group) item).workload =
      if group.workload.processes = [] then own item.process
      else next (field group.workload) (own item.process))
    {items : List DetectedProcess} (hne : items ≠ []) :
    First p (items.map fun item => own item.process) (field (groupOf items).workload) := by
  induction items using List.reverseRecOn with
  | nil => exact absurd rfl hne
  | append_singleton items item ih =>
    rw [groupOf_concat, hfield, groupOf_processes, List.map_append]
    by_cases hitems : items = []
    · rw [hitems]
      exact first_singleton p _
    · rw [if_neg (by rwa [List.map_eq_nil_iff])]
      exact (ih hitems).concat hrule _

/-! ## The fields of a workload -/

/-- The field is the first real value of the members, or not real if there is none. -/
abbrev ShowsFirst (values : List Text) (field : Text) : Prop := First isReal values field

/-- A member has a real core mix, but the first that is neither empty nor `-` is not one. -/
def MixMasked (mixes : List Text) : Prop :=
  (∃ mix ∈ mixes, isReal mix = true) ∧ ∃ mix, mixes.find? isKeptMix = some mix ∧ isReal mix = false

theorem isKeptMix_of_isReal {mix : Text} (h : isReal mix = true) : isKeptMix mix = true := by
  by_contra hkept
  rcases isKeptMix_eq_false.mp (Bool.eq_false_of_not_eq_true hkept) with rfl | rfl
  · cases h
  · exact absurd h (by simp [isReal, isMissingValue])

/-- Where the first kept mix is real, it is the first real one. -/
theorem find?_isReal_of_kept {mixes : List Text} {mix : Text} (hkept : mixes.find? isKeptMix = some mix)
    (hreal : isReal mix = true) : mixes.find? isReal = some mix := by
  obtain ⟨-, before, after, rfl, hbefore⟩ := List.find?_eq_some_iff_append.mp hkept
  refine List.find?_eq_some_iff_append.mpr ⟨hreal, before, after, rfl, fun other hother => ?_⟩
  rw [Bool.not_eq_true', Bool.eq_false_iff]
  intro hbad
  have hnot := hbefore other hother
  rw [isKeptMix_of_isReal hbad] at hnot
  cases hnot

theorem showsFirst_mix_iff {mixes : List Text} {field : Text} (h : First isKeptMix mixes field) :
    ShowsFirst mixes field ↔ ¬ MixMasked mixes := by
  cases hkept : mixes.find? isKeptMix with
  | none =>
    have hnone : ∀ mix ∈ mixes, ¬ isReal mix = true := fun mix hmix hreal =>
      List.find?_eq_none.mp hkept mix hmix (isKeptMix_of_isReal hreal)
    have hfield : isKeptMix field = false := by
      unfold First at h
      rwa [hkept] at h
    refine iff_of_true ?_ fun hmasked => ?_
    · unfold ShowsFirst First
      rw [List.find?_eq_none.mpr hnone]
      refine Bool.eq_false_of_not_eq_true fun hreal => ?_
      rw [isKeptMix_of_isReal hreal] at hfield
      cases hfield
    · obtain ⟨⟨mix, hmix, hreal⟩, -⟩ := hmasked
      exact hnone mix hmix hreal
  | some mix =>
    obtain rfl : field = mix := by
      unfold First at h
      rwa [hkept] at h
    cases hreal : isReal field with
    | true =>
      refine iff_of_true ?_ fun hmasked => ?_
      · unfold ShowsFirst First
        rw [find?_isReal_of_kept hkept hreal]
      · obtain ⟨-, mix, hmix, hbad⟩ := hmasked
        rw [hkept, Option.some_inj] at hmix
        rw [← hmix, hreal] at hbad
        cases hbad
    | false =>
      cases hfound : mixes.find? isReal with
      | none =>
        refine iff_of_true ?_ fun hmasked => ?_
        · unfold ShowsFirst First
          rw [hfound]
          exact hreal
        · obtain ⟨⟨mix, hmix, hbad⟩, -⟩ := hmasked
          exact List.find?_eq_none.mp hfound mix hmix hbad
      | some value =>
        have hvalue := List.find?_some hfound
        refine iff_of_false (fun hshows => ?_) (not_not.mpr
          ⟨⟨value, List.mem_of_find?_eq_some hfound, hvalue⟩, field, hkept, hreal⟩)
        unfold ShowsFirst First at hshows
        rw [hfound] at hshows
        rw [show field = value from hshows, hvalue] at hreal
        cases hreal

/-- The three signal fields show the first real values of the members. -/
structure SignalsShown (w : WorkloadSnapshot) (members : List ProcessSnapshot) : Prop where
  coreMix : ShowsFirst (members.map (·.coreMix)) w.coreMix
  io : ShowsFirst (members.map (·.io)) w.io
  power : ShowsFirst (members.map (·.power)) w.power

section Signals
variable (σ : StdSort) (snapshot : SystemSnapshot)

/-- The field of a workload, from its members. -/
theorem workloadOf_first {p : Text → Bool} {next : Text → Text → Text} (hrule : Settles p next)
    (field : WorkloadSnapshot → Text) (own : ProcessSnapshot → Text)
    (hfinish : ∀ w, field (finishWorkload σ w) = field w)
    (hfield : ∀ group item, field (accumulate (some group) item).workload =
      if group.workload.processes = [] then own item.process
      else next (field group.workload) (own item.process))
    {key : Text} (hk : key ∈ groupKeys snapshot) :
    First p (((groupMembers snapshot key).map (·.process)).map own)
      (field (workloadOf σ snapshot key)) := by
  have hfirst := groupOf_first hrule field own hfield (groupMembers_ne_nil hk)
  unfold workloadOf
  rw [hfinish, List.map_map]
  exact hfirst

/-- Every workload shows the first real I/O and power of its members, and the first real core mix
exactly when no other placeholder than an empty text or `-` comes before it. -/
theorem workload_signals_iff :
    ∃ members : List (List ProcessSnapshot),
      List.Forall₂ (fun w processes => Reports snapshot w processes ∧
        ShowsFirst (processes.map (·.io)) w.io ∧ ShowsFirst (processes.map (·.power)) w.power ∧
        (SignalsShown w processes ↔ ¬ MixMasked (processes.map (·.coreMix))))
        (buildWorkloads σ snapshot) members ∧
      members.flatten.Perm (aiProcesses σ snapshot) := by
  refine buildWorkloads_members σ snapshot fun key hk => ?_
  have hmix := workloadOf_first σ snapshot nextMix_settles (·.coreMix) (·.coreMix) (fun _ => rfl)
    accumulate_coreMix hk
  have hio := workloadOf_first σ snapshot firstAvailableSignal_settles (·.io) (·.io) (fun _ => rfl)
    accumulate_io hk
  have hpower := workloadOf_first σ snapshot firstAvailableSignal_settles (·.power) (·.power)
    (fun _ => rfl) accumulate_power hk
  refine ⟨workloadOf_reports σ snapshot hk, hio, hpower, ?_⟩
  rw [← showsFirst_mix_iff hmix]
  exact ⟨fun h => h.coreMix, fun h => ⟨h, hio, hpower⟩⟩

end Signals

/-- A manager whose core mix went stale, and its runner with one. -/
def staleManager : SystemSnapshot :=
  { processes := [{ ollama 10 1 with coreMix := str "stale" },
      { ollamaRunner 11 10 with coreMix := str "P:75% E:25%" }] }

/-- The workload of both shows `stale`, not the core mix of the runner. -/
theorem stale_masks_mix :
    (buildWorkloads .insertion staleManager).map
        (fun w => (w.processes.map (·.pid), w.coreMix)) = [([10, 11], str "stale")] ∧
      staleManager.processes.map (·.coreMix) = [str "stale", str "P:75% E:25%"] ∧
      ¬ ShowsFirst [str "stale", str "P:75% E:25%"] (str "stale") := by
  refine ⟨by decide +kernel, rfl, fun h => ?_⟩
  have hfound : [str "stale", str "P:75% E:25%"].find? isReal = some (str "P:75% E:25%") := by
    decide +kernel
  unfold ShowsFirst First at h
  rw [hfound] at h
  exact absurd h (by simp)

end Mtop
