import Mtop.Model.WorkloadGroups
import Mathlib.Order.Lex
import Mathlib.Data.List.Lex
import Mathlib.Data.Char

/-! `buildWorkloads` splits the processes that `buildAiProcessRows` marks: none is lost, none is
listed twice, and every total of a workload is taken over exactly its members. -/
namespace Mtop
open Cxx
set_option autoImplicit false

/-! ## Comparators -/

theorem refLess_strictWeak : StrictWeak refLess :=
  StrictWeak.of_linear.comap WorkloadProcessRef.pid

/-- `workloadLess` as the lexicographic order it implements. -/
theorem workloadLess_eq (a b : WorkloadSnapshot) :
    workloadLess a b =
      (decide (b.residentBytes.toNat < a.residentBytes.toNat) ||
        (!decide (a.residentBytes.toNat < b.residentBytes.toNat) && decide (a.name < b.name))) := by
  unfold workloadLess
  have hinj : a.residentBytes = b.residentBytes ↔ a.residentBytes.toNat = b.residentBytes.toNat :=
    UInt64.toNat_inj.symm
  have hlt : (a.residentBytes > b.residentBytes) ↔ b.residentBytes.toNat < a.residentBytes.toNat :=
    UInt64.lt_iff_toNat_lt
  by_cases h : a.residentBytes.toNat = b.residentBytes.toNat
  · simp [hinj, h]
  · rcases Nat.lt_or_gt_of_ne h with h' | h' <;> simp [hinj, hlt, h, h', Nat.lt_asymm h']

theorem workloadLess_strictWeak : StrictWeak workloadLess := by
  have hbytes : StrictWeak fun a b : WorkloadSnapshot =>
      decide (b.residentBytes.toNat < a.residentBytes.toNat) :=
    (StrictWeak.of_linear.comap fun w : WorkloadSnapshot => w.residentBytes.toNat).flip
  have hname : StrictWeak fun a b : WorkloadSnapshot => decide (a.name < b.name) :=
    StrictWeak.of_linear.comap WorkloadSnapshot.name
  rw [show workloadLess = _ from funext₂ workloadLess_eq]
  exact hbytes.lex hname

/-! ## What a workload says about its members -/

/-- A process as the JSON and the detail popup name it. -/
def processIdentity (process : ProcessSnapshot) : ℤ × ℤ × Text :=
  (process.pid, process.parentPid, process.command)

def refIdentity (ref : WorkloadProcessRef) : ℤ × ℤ × Text := (ref.pid, ref.parentPid, ref.command)

/-- `w` reports on exactly `members`, listed in snapshot order. -/
structure Reports (snapshot : SystemSnapshot) (w : WorkloadSnapshot)
    (members : List ProcessSnapshot) : Prop where
  sublist : members.Sublist snapshot.processes
  listed : (w.processes.map refIdentity).Perm (members.map processIdentity)
  nonempty : w.processes ≠ []
  sorted : w.processes.Pairwise fun a b => a.pid ≤ b.pid
  kind : ∀ p ∈ members, (detectWorkloadProcess p).kind = w.kind
  resident : w.residentBytes.toNat = (members.map (·.residentBytes.toNat)).sum % 2 ^ 64
  virtual : w.virtualBytes.toNat = (members.map (·.virtualBytes.toNat)).sum % 2 ^ 64
  cpu : w.cpuPercent = (members.map (·.cpuPercent)).foldl (· + ·) 0
  memory : w.memoryPercent = (members.map (·.memoryPercent)).foldl (· + ·) 0
  gpu : w.gpuActive = members.any (·.gpuActive)

section Totals
variable (σ : StdSort) (snapshot : SystemSnapshot)

theorem mem_groupMembers_kind {key : Text} {a b : DetectedProcess}
    (ha : a ∈ groupMembers snapshot key) (hb : b ∈ groupMembers snapshot key) :
    a.detection.kind = b.detection.kind := by
  have h := (mem_groupMembers.mp ha).2.trans (mem_groupMembers.mp hb).2.symm
  exact (groupingKey_inj.mp h).1

theorem detectProcess_process (items : List DetectedProcess)
    (h : ∀ item ∈ items, item ∈ detectedProcesses snapshot) :
    ∀ item ∈ items, item.detection = detectWorkloadProcess item.process := by
  intro item hm
  obtain ⟨process, -, -, rfl⟩ := mem_detectedProcesses.mp (h item hm)
  rfl

theorem groupMembers_sublist (key : Text) :
    ((groupMembers snapshot key).map (·.process)).Sublist snapshot.processes := by
  have h : ((detectedProcesses snapshot).map (·.process)).Sublist snapshot.processes := by
    rw [detectedProcesses_eq, List.map_map]
    simp [Function.comp_def, detectProcess]
  exact (List.filter_sublist.map _).trans h

theorem workloadOf_processes (key : Text) :
    ((workloadOf σ snapshot key).processes).Perm ((groupMembers snapshot key).map processRef) := by
  change (σ.sort refLess (groupOf (groupMembers snapshot key)).workload.processes).Perm _
  rw [groupOf_processes]
  exact σ.perm _ _

/-- Each workload reports on the processes of its group. -/
theorem workloadOf_reports {key : Text} (hk : key ∈ groupKeys snapshot) :
    Reports snapshot (workloadOf σ snapshot key) ((groupMembers snapshot key).map (·.process)) where
  sublist := groupMembers_sublist snapshot key
  listed := by
    rw [List.map_map]
    refine ((workloadOf_processes σ snapshot key).map refIdentity).trans ?_
    rw [List.map_map]
    exact .of_eq rfl
  nonempty h := by
    have hp := workloadOf_processes σ snapshot key
    rw [h] at hp
    exact groupMembers_ne_nil hk (List.map_eq_nil_iff.mp hp.nil_eq.symm)
  sorted := (σ.sorted refLess _ refLess_strictWeak).imp fun h => by
    simpa [refLess] using h
  kind p hp := by
    obtain ⟨item, hm, rfl⟩ := List.mem_map.mp hp
    have hsub : ∀ i ∈ groupMembers snapshot key, i ∈ detectedProcesses snapshot :=
      fun i hi => (mem_groupMembers.mp hi).1
    rw [← detectProcess_process snapshot _ hsub item hm]
    exact (groupOf_kind _ _ (fun other ho => mem_groupMembers_kind snapshot ho hm)
      (groupMembers_ne_nil hk)).symm
  resident := by
    rw [List.map_map]
    exact groupOf_residentBytes _
  virtual := by
    rw [List.map_map]
    exact groupOf_virtualBytes _
  cpu := by
    rw [List.map_map]
    exact groupOf_cpuPercent _
  memory := by
    rw [List.map_map]
    exact groupOf_memoryPercent _
  gpu := by
    rw [List.any_map]
    exact groupOf_gpuActive _

/-! ## The AI rows -/

theorem aiProcessRow_process (process : ProcessSnapshot) :
    (aiProcessRow process).process = process := by
  unfold aiProcessRow
  dsimp only
  split <;> rfl

/-- Both thresholds, `confidence < 0.60` and `confidence >= 0.60`, split the processes alike. -/
theorem aiProcessRow_listed (process : ProcessSnapshot) :
    (aiProcessRow process).isAi = Double.le 0.60 (detectWorkloadProcess process).confidence := by
  unfold aiProcessRow
  dsimp only
  split <;> rfl

theorem aiProcessRow_isAi (process : ProcessSnapshot) :
    (aiProcessRow process).isAi = isDetected process := by
  rw [aiProcessRow_listed]
  exact Double.le_eq_not_lt (by rfl) (detect_confidence_isFinite process)

/-- The processes that `buildAiProcessRows` flags, in row order. -/
def aiProcesses : List ProcessSnapshot :=
  ((buildAiProcessRows σ snapshot).filter (·.isAi)).map (·.process)

theorem aiProcesses_perm :
    (aiProcesses σ snapshot).Perm (snapshot.processes.filter isDetected) := by
  have h := ((σ.perm aiRowLess (snapshot.processes.map aiProcessRow)).filter (·.isAi)).map (·.process)
  refine h.trans (.of_eq ?_)
  rw [List.filter_map, List.map_map]
  simp only [Function.comp_def, aiProcessRow_process, aiProcessRow_isAi, List.map_id']

/-! ## The partition -/

theorem detectedProcesses_map_process :
    (detectedProcesses snapshot).map (·.process) = snapshot.processes.filter isDetected := by
  simp [detectedProcesses_eq, Function.comp_def, detectProcess]

theorem workloads_processes_perm :
    ((buildWorkloads σ snapshot).flatMap (·.processes)).Perm
      ((detectedProcesses snapshot).map processRef) := by
  have hw : ((buildWorkloads σ snapshot).flatMap (·.processes)).Perm
      ((groupKeys snapshot).flatMap fun key => (workloadOf σ snapshot key).processes) := by
    refine ((buildWorkloads_perm σ snapshot).flatMap_right _).trans (.of_eq ?_)
    rw [List.flatMap_map]
  have hm : ((groupKeys snapshot).flatMap fun key => (workloadOf σ snapshot key).processes).Perm
      ((groupKeys snapshot).flatMap fun key => (groupMembers snapshot key).map processRef) :=
    List.Perm.flatMap_left _ fun key _ => workloadOf_processes σ snapshot key
  refine hw.trans (hm.trans ?_)
  rw [← List.map_flatMap]
  exact (groupMembers_perm snapshot).map processRef

/-- What holds of every group and its processes holds of the workloads and their members. -/
theorem buildWorkloads_members {P : WorkloadSnapshot → List ProcessSnapshot → Prop}
    (h : ∀ key ∈ groupKeys snapshot,
      P (workloadOf σ snapshot key) ((groupMembers snapshot key).map (·.process))) :
    ∃ members : List (List ProcessSnapshot),
      List.Forall₂ P (buildWorkloads σ snapshot) members ∧
      members.flatten.Perm (aiProcesses σ snapshot) := by
  have hkeys : List.Forall₂ P ((groupKeys snapshot).map (workloadOf σ snapshot))
      ((groupKeys snapshot).map fun key => (groupMembers snapshot key).map (·.process)) := by
    rw [List.forall₂_map_left_iff, List.forall₂_map_right_iff, List.forall₂_same]
    exact h
  have hdetected : ((detectedProcesses snapshot).map (·.process)).Perm (aiProcesses σ snapshot) := by
    rw [detectedProcesses_map_process]
    exact (aiProcesses_perm σ snapshot).symm
  obtain ⟨members, hreports, hperm⟩ :=
    List.perm_comp_forall₂ (buildWorkloads_perm σ snapshot) hkeys
  refine ⟨members, hreports, hperm.flatten.trans ?_⟩
  rw [← List.flatMap_def, ← List.map_flatMap]
  exact ((groupMembers_perm snapshot).map _).trans hdetected

/-- The workloads of a snapshot partition the processes flagged as AI: each workload reports on
its own members, and the members of all workloads are the flagged processes. -/
theorem buildWorkloads_partition :
    (((buildWorkloads σ snapshot).flatMap (·.processes)).map refIdentity).Perm
      ((aiProcesses σ snapshot).map processIdentity) ∧
    (∃ members : List (List ProcessSnapshot),
      List.Forall₂ (Reports snapshot) (buildWorkloads σ snapshot) members ∧
      members.flatten.Perm (aiProcesses σ snapshot)) ∧
    (buildWorkloads σ snapshot).Pairwise fun a b => b.residentBytes ≤ a.residentBytes := by
  have hdetected : ((detectedProcesses snapshot).map (·.process)).Perm (aiProcesses σ snapshot) := by
    rw [detectedProcesses_map_process]
    exact (aiProcesses_perm σ snapshot).symm
  refine ⟨?_, ?_, ?_⟩
  · refine ((workloads_processes_perm σ snapshot).map refIdentity).trans ?_
    refine List.Perm.trans (.of_eq ?_) (hdetected.map processIdentity)
    rw [List.map_map, List.map_map]
    rfl
  · exact buildWorkloads_members σ snapshot fun key hk => workloadOf_reports σ snapshot hk
  · rw [buildWorkloads_eq]
    refine (σ.sorted workloadLess _ workloadLess_strictWeak).imp fun {a b} h => ?_
    rw [workloadLess_eq] at h
    simp only [Bool.or_eq_false_iff, decide_eq_false_iff_not, not_lt] at h
    exact UInt64.le_iff_toNat_le.mpr h.1

end Totals
end Mtop
