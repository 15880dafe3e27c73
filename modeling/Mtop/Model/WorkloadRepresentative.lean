import Mtop.Model.WorkloadFamily

/-! The name and the hint of a workload, from its members. Within one kind the representative is the
first member of the highest confidence; the published hint is the last hint of a member that took
over the representation, else the first hint at all. -/
namespace Mtop
open Cxx
set_option autoImplicit false

/-! ## The representative -/

def confidence (item : DetectedProcess) : ℚ := item.detection.confidence.value

/-- The detection of the item is what the detector says of its process. -/
def Detects (item : DetectedProcess) : Prop := item.detection = detectWorkloadProcess item.process

theorem lt_confidence {a b : DetectedProcess} (ha : Detects a) (hb : Detects b) :
    Double.lt a.detection.confidence b.detection.confidence = decide (confidence a < confidence b) := by
  rw [Double.lt_eq_value (by rw [ha]; exact detect_confidence_isFinite _)
    (by rw [hb]; exact detect_confidence_isFinite _)]
  rfl

/-- The role of `a` is preferred to the one of `b`. -/
def Preferred (a b : WorkloadRole) : Prop :=
  (a = .manager ∧ b ≠ .manager) ∨ (a = .server ∧ b ≠ .manager ∧ b ≠ .server)

/-- Within one kind a role that is preferred comes with a higher confidence. -/
theorem Preferred.confidence_lt {a b : DetectedProcess} (ha : Detects a) (hb : Detects b)
    (hk : a.detection.kind = b.detection.kind) (h : Preferred a.detection.role b.detection.role) :
    confidence b < confidence a := by
  have hrules : ∀ r ∈ detectionRules, ∀ s ∈ detectionRules, r.1 = s.1 → Preferred r.2.1 s.2.1 →
      Double.lt s.2.2 r.2.2 = true := by
    unfold Preferred
    decide +kernel
  have hlt := hrules _ (detect_followsRule a.process) _ (detect_followsRule b.process)
  rw [← ha, ← hb] at hlt
  have hdouble := hlt hk h
  rw [lt_confidence hb ha] at hdouble
  exact of_decide_eq_true hdouble

theorem betterRepresentative_some {a b : DetectedProcess} (ha : Detects a) (hb : Detects b)
    (hk : a.detection.kind = b.detection.kind) :
    betterRepresentative a (some b) = decide (confidence b < confidence a) := by
  unfold betterRepresentative
  dsimp only
  split
  · next h =>
    simp only [Bool.and_eq_true, decide_eq_true_eq] at h
    exact (decide_eq_true (Preferred.confidence_lt ha hb hk (.inl h))).symm
  · split
    · next h =>
      simp only [Bool.and_eq_true, decide_eq_true_eq] at h
      exact (decide_eq_true (Preferred.confidence_lt ha hb hk (.inr ⟨h.1.1, h.1.2, h.2⟩))).symm
    · exact lt_confidence hb ha

/-! ## Leaders -/

/-- The members with a higher confidence than every member before them. -/
def leaders : List DetectedProcess → List DetectedProcess → List DetectedProcess
  | _, [] => []
  | before, item :: rest =>
    (if ∀ other ∈ before, confidence other < confidence item then [item] else []) ++
      leaders (before ++ [item]) rest

theorem leaders_concat (before items : List DetectedProcess) (item : DetectedProcess) :
    leaders before (items ++ [item]) = leaders before items ++
      if ∀ other ∈ before ++ items, confidence other < confidence item then [item] else [] := by
  induction items generalizing before with
  | nil => simp [leaders]
  | cons first items ih =>
    rw [List.cons_append, leaders, leaders, ih, List.append_assoc, List.append_assoc]
    simp only [List.cons_append, List.nil_append]

/-- After a member of the highest confidence nobody takes over. -/
theorem leaders_eq_nil {before items : List DetectedProcess} {top : DetectedProcess}
    (ht : top ∈ before) (h : ∀ item ∈ items, confidence item ≤ confidence top) :
    leaders before items = [] := by
  induction items generalizing before with
  | nil => rfl
  | cons item items ih =>
    have hnot : ¬ ∀ other ∈ before, confidence other < confidence item := fun hall =>
      absurd (hall top ht) (not_lt.mpr (h item List.mem_cons_self))
    rw [leaders, if_neg hnot, List.nil_append]
    exact ih (List.mem_append_left _ ht) fun other ho => h other (List.mem_cons_of_mem _ ho)

/-- `item` has the highest confidence among `items`. -/
def Tops (items : List DetectedProcess) (item : DetectedProcess) : Prop :=
  item ∈ items ∧ ∀ other ∈ items, confidence other ≤ confidence item

theorem leaders_getLast?_none {items : List DetectedProcess}
    (h : (leaders [] items).getLast? = none) : items = [] := by
  cases items with
  | nil => rfl
  | cons item items => simp [leaders] at h

/-- The last leader has the highest confidence. -/
theorem leaders_getLast?_tops {items : List DetectedProcess} {r : DetectedProcess}
    (h : (leaders [] items).getLast? = some r) : Tops items r := by
  induction items using List.reverseRecOn generalizing r with
  | nil => simp [leaders] at h
  | append_singleton items item ih =>
    rw [leaders_concat, List.nil_append] at h
    by_cases hall : ∀ other ∈ items, confidence other < confidence item
    · rw [if_pos hall, List.getLast?_concat, Option.some.injEq] at h
      subst h
      refine ⟨by simp, fun other ho => ?_⟩
      rcases List.mem_append.mp ho with ho | ho
      · exact (hall other ho).le
      · rw [List.mem_singleton.mp ho]
    · rw [if_neg hall, List.append_nil] at h
      obtain ⟨hr, htop⟩ := ih h
      push Not at hall
      obtain ⟨y, hy, hle⟩ := hall
      refine ⟨List.mem_append_left _ hr, fun other ho => ?_⟩
      rcases List.mem_append.mp ho with ho | ho
      · exact htop other ho
      · rw [List.mem_singleton.mp ho]
        exact hle.trans (htop y hy)

/-! ## The representative is the last leader -/

/-- Detected processes of a single kind. -/
structure OneKind (items : List DetectedProcess) : Prop where
  detects : ∀ item ∈ items, Detects item
  kind : ∀ a ∈ items, ∀ b ∈ items, a.detection.kind = b.detection.kind

theorem OneKind.subset {items others : List DetectedProcess} (h : OneKind items)
    (hs : others ⊆ items) : OneKind others where
  detects item hm := h.detects item (hs hm)
  kind a ha b hb := h.kind a (hs ha) b (hs hb)

theorem OneKind.betterRepresentative {items : List DetectedProcess} {item : DetectedProcess}
    (h : OneKind (items ++ [item])) :
    betterRepresentative item (leaders [] items).getLast? =
      decide (∀ other ∈ items, confidence other < confidence item) := by
  cases hl : (leaders [] items).getLast? with
  | none =>
    rw [leaders_getLast?_none hl]
    rfl
  | some r =>
    obtain ⟨hr, htop⟩ := leaders_getLast?_tops hl
    have hitem : item ∈ items ++ [item] := by simp
    have hr' : r ∈ items ++ [item] := List.mem_append_left _ hr
    rw [betterRepresentative_some (h.detects _ hitem) (h.detects _ hr') (h.kind _ hitem _ hr')]
    refine decide_eq_decide.mpr ⟨fun hlt other ho => (htop other ho).trans_lt hlt, fun hall => ?_⟩
    exact hall r hr

theorem groupOf_representative {items : List DetectedProcess} (h : OneKind items) :
    (groupOf items).representative = (leaders [] items).getLast? := by
  induction items using List.reverseRecOn with
  | nil => rfl
  | append_singleton items item ih =>
    have hrep := ih (h.subset (List.subset_append_left _ _))
    have hbetter := h.betterRepresentative
    rw [groupOf_concat, leaders_concat, List.nil_append]
    simp only [accumulate, Option.getD_some]
    rw [hrep, hbetter]
    by_cases hall : ∀ other ∈ items, confidence other < confidence item
    · rw [if_pos (decide_eq_true hall), if_pos hall, List.getLast?_concat]
    · rw [if_neg (by simpa using hall), if_neg hall, List.append_nil]

/-! ## Name and hint -/

theorem groupOf_name {items : List DetectedProcess} (h : OneKind items) {r : DetectedProcess}
    (hr : (leaders [] items).getLast? = some r) :
    (groupOf items).workload.name = displayName r := by
  induction items using List.reverseRecOn with
  | nil => simp [leaders] at hr
  | append_singleton items item ih =>
    have hprefix := h.subset (List.subset_append_left items [item])
    have hrep := groupOf_representative hprefix
    rw [leaders_concat, List.nil_append] at hr
    rw [groupOf_concat]
    simp only [accumulate, Option.getD_some]
    rw [hrep, h.betterRepresentative]
    by_cases hall : ∀ other ∈ items, confidence other < confidence item
    · rw [if_pos hall, List.getLast?_concat, Option.some.injEq] at hr
      rw [if_pos (decide_eq_true hall), hr]
      rfl
    · rw [if_neg hall, List.append_nil] at hr
      have hne : (groupOf items).workload.processes ≠ [] := by
        rw [groupOf_processes]
        intro e
        rw [List.map_eq_nil_iff.mp e] at hr
        simp [leaders] at hr
      rw [if_neg (by simpa using hall), if_neg hne]
      exact ih hprefix hr

/-- The model hints of the members that have one. -/
def hints (items : List DetectedProcess) : List Text :=
  (items.map (·.detection.modelHint)).filter (· ≠ [])

theorem hints_append (items others : List DetectedProcess) :
    hints (items ++ others) = hints items ++ hints others := by
  simp [hints]

theorem hints_singleton (item : DetectedProcess) :
    hints [item] = if item.detection.modelHint = [] then [] else [item.detection.modelHint] := by
  by_cases h : item.detection.modelHint = [] <;> simp [hints, h]

theorem mem_hints {items : List DetectedProcess} {hint : Text} :
    hint ∈ hints items ↔ hint ≠ [] ∧ ∃ item ∈ items, item.detection.modelHint = hint := by
  rw [hints, List.mem_filter, List.mem_map, decide_eq_true_eq, and_comm]

/-- The last hint of a leader, else the first hint, else none. -/
def publishedHint (items : List DetectedProcess) : Text :=
  (hints (leaders [] items)).getLastD ((hints items).headD [])

theorem leaders_subset (before items : List DetectedProcess) : leaders before items ⊆ items := by
  induction items generalizing before with
  | nil => exact List.Subset.refl _
  | cons item items ih =>
    rw [leaders]
    refine List.append_subset.mpr ⟨?_, fun other ho => List.mem_cons_of_mem _ (ih _ ho)⟩
    split <;> simp

theorem hints_leaders_subset (items : List DetectedProcess) :
    hints (leaders [] items) ⊆ hints items := by
  intro hint hm
  obtain ⟨hne, item, hi, he⟩ := mem_hints.mp hm
  exact mem_hints.mpr ⟨hne, item, leaders_subset _ _ hi, he⟩

theorem hints_leaders_eq_nil {items : List DetectedProcess} (h : hints items = []) :
    hints (leaders [] items) = [] :=
  List.subset_nil.mp (h ▸ hints_leaders_subset items)

/-- A group with a hint publishes one of its own. -/
theorem publishedHint_mem {items : List DetectedProcess} (h : hints items ≠ []) :
    publishedHint items ∈ hints items := by
  unfold publishedHint
  rw [List.getLastD_eq_getLast?]
  cases hl : (hints (leaders [] items)).getLast? with
  | some hint =>
    exact hints_leaders_subset items (List.mem_of_getLast? hl)
  | none =>
    cases hh : hints items with
    | nil => exact absurd hh h
    | cons hint rest => simp

theorem publishedHint_eq_nil {items : List DetectedProcess} :
    publishedHint items = [] ↔ hints items = [] := by
  constructor
  · intro h
    by_contra hne
    exact (mem_hints.mp (publishedHint_mem hne)).1 h
  · intro h
    rw [publishedHint, hints_leaders_eq_nil h, h]
    rfl

theorem publishedHint_concat_leader {items : List DetectedProcess} {item : DetectedProcess}
    (hall : ∀ other ∈ items, confidence other < confidence item) :
    publishedHint (items ++ [item]) =
      if item.detection.modelHint = [] then publishedHint items else item.detection.modelHint := by
  unfold publishedHint
  rw [leaders_concat, List.nil_append, if_pos hall, hints_append, hints_append, hints_singleton]
  split
  · rw [List.append_nil, List.append_nil]
  · exact List.getLastD_concat

theorem publishedHint_concat_other {items : List DetectedProcess} {item : DetectedProcess}
    (hall : ¬ ∀ other ∈ items, confidence other < confidence item) :
    publishedHint (items ++ [item]) =
      if publishedHint items = [] then item.detection.modelHint else publishedHint items := by
  have hl : leaders [] (items ++ [item]) = leaders [] items := by
    rw [leaders_concat, List.nil_append, if_neg hall, List.append_nil]
  by_cases hempty : publishedHint items = []
  · have hh := publishedHint_eq_nil.mp hempty
    have hlead : hints (leaders [] items) = [] := hints_leaders_eq_nil hh
    rw [if_pos hempty, publishedHint, hl, hlead, hints_append, hh, hints_singleton]
    split
    · next hi => exact hi.symm
    · rfl
  · rw [if_neg hempty]
    unfold publishedHint
    rw [hl, hints_append]
    cases hh : hints items with
    | nil => exact absurd (publishedHint_eq_nil.mpr hh) hempty
    | cons hint rest => rfl

theorem accumulate_modelHint (group : Group) (item : DetectedProcess) :
    (accumulate (some group) item).workload.modelHint =
      if betterRepresentative item group.representative = true ∧ item.detection.modelHint ≠ [] then
        item.detection.modelHint
      else if group.workload.processes = [] ∨ group.workload.modelHint = [] then
        item.detection.modelHint
      else group.workload.modelHint := by
  simp only [accumulate, Option.getD_some]
  by_cases hb : betterRepresentative item group.representative = true <;>
    by_cases hp : group.workload.processes = [] <;>
    simp [hb, hp, representWorkload, addProcess, seedWorkload, mergeWorkload]

theorem groupOf_modelHint {items : List DetectedProcess} (h : OneKind items) :
    (groupOf items).workload.modelHint = publishedHint items := by
  induction items using List.reverseRecOn with
  | nil => rfl
  | append_singleton items item ih =>
    have hprefix := h.subset (List.subset_append_left items [item])
    have hempty : (groupOf items).workload.processes = [] ∨ publishedHint items = [] ↔
        publishedHint items = [] := or_iff_right_of_imp fun hp => by
      rw [groupOf_processes, List.map_eq_nil_iff] at hp
      rw [hp]
      rfl
    rw [groupOf_concat, accumulate_modelHint, groupOf_representative hprefix,
      h.betterRepresentative, ih hprefix]
    simp only [hempty]
    by_cases hall : ∀ other ∈ items, confidence other < confidence item
    · rw [publishedHint_concat_leader hall]
      by_cases hitem : item.detection.modelHint = []
      · simp [hitem]
      · rw [if_pos ⟨decide_eq_true hall, hitem⟩, if_neg hitem]
    · rw [publishedHint_concat_other hall, if_neg fun hb => hall (of_decide_eq_true hb.1)]

end Mtop
