import Mtop.Model.Workload
import Mathlib.Algebra.BigOperators.Group.List.Basic

/-! The grouping of `buildWorkloads`, group by group: a grouping key names its kind and one of four
rules, a workload is the fold over the processes of its key, and nothing else enters it. -/
namespace Mtop
open Cxx Std
set_option autoImplicit false

/-! ## Grouping keys -/

/-- Which of the four rules keyed a process, and by what. -/
inductive GroupingRule where
  | manager (owner : ℤ)
  | parent (owner : ℤ)
  | model (hint : Text)
  | pid (own : ℤ)
  deriving DecidableEq

def GroupingRule.text : GroupingRule → Text
  | .manager owner => str "manager:" ++ intText owner
  | .parent owner => str "parent:" ++ intText owner
  | .model hint => str "model:" ++ hint
  | .pid own => str "pid:" ++ intText own

theorem GroupingRule.text_injective : Function.Injective GroupingRule.text := by
  intro a b h
  cases a <;> cases b <;> simp [GroupingRule.text] at h
  case manager.manager => rw [intText_injective h]
  case parent.parent => rw [intText_injective h]
  case model.model => rw [h]
  case pid.pid => rw [intText_injective h]

/-- The process with the parent's pid, when it was detected as the same kind. -/
def sameKindParent (item : DetectedProcess) (byPid : TreeMap ℤ DetectedProcess) :
    Option DetectedProcess :=
  byPid[item.process.parentPid]?.filter fun parent => parent.detection.kind = item.detection.kind

def groupingRule (item : DetectedProcess) (byPid : TreeMap ℤ DetectedProcess) : GroupingRule :=
  match if item.detection.kind = .ollama then owningManager item byPid else none with
  | some parent => .manager parent.process.pid
  | none =>
    match sameKindParent item byPid with
    | some parent => .parent parent.process.pid
    | none =>
      if item.detection.modelHint ≠ [] then .model item.detection.modelHint
      else .pid item.process.pid

theorem groupingKey_eq (item : DetectedProcess) (byPid : TreeMap ℤ DetectedProcess) :
    groupingKey item byPid =
      workloadKindName item.detection.kind ++ ':' :: (groupingRule item byPid).text := by
  unfold groupingKey groupingRule sameKindParent
  dsimp only
  generalize (if item.detection.kind = .ollama then owningManager item byPid else none) = manager
  generalize (byPid[item.process.parentPid]?.filter fun parent =>
    decide (parent.detection.kind = item.detection.kind)) = parent
  cases manager with
  | some manager => simp [GroupingRule.text]
  | none =>
    cases parent with
    | some parent => simp [GroupingRule.text]
    | none => by_cases h : item.detection.modelHint = [] <;> simp [h, GroupingRule.text]

/-- No kind name contains a colon, so the name ends where the first colon stands. -/
theorem kindName_takeWhile (kind : WorkloadKind) (rest : Text) :
    (workloadKindName kind ++ ':' :: rest).takeWhile (· ≠ ':') = workloadKindName kind := by
  cases kind <;> simp [workloadKindName]

theorem workloadKindName_injective : Function.Injective workloadKindName := by
  intro a b h
  cases a <;> cases b <;> first | rfl | exact absurd h (by decide +kernel)

theorem kindName_append_inj {a b : WorkloadKind} {s t : Text}
    (h : workloadKindName a ++ ':' :: s = workloadKindName b ++ ':' :: t) : a = b ∧ s = t := by
  have hk : workloadKindName a = workloadKindName b := by
    rw [← kindName_takeWhile a s, h, kindName_takeWhile]
  have hab := workloadKindName_injective hk
  subst hab
  exact ⟨rfl, (List.cons.inj (List.append_cancel_left h)).2⟩

theorem groupingKey_inj {a b : DetectedProcess} {byPid : TreeMap ℤ DetectedProcess} :
    groupingKey a byPid = groupingKey b byPid ↔
      a.detection.kind = b.detection.kind ∧ groupingRule a byPid = groupingRule b byPid := by
  rw [groupingKey_eq, groupingKey_eq]
  constructor
  · intro h
    obtain ⟨hk, ht⟩ := kindName_append_inj h
    exact ⟨hk, GroupingRule.text_injective ht⟩
  · rintro ⟨hk, hr⟩
    rw [hk, hr]

/-! ## The detected processes of a snapshot -/

def isDetected (process : ProcessSnapshot) : Bool :=
  !Double.lt (detectWorkloadProcess process).confidence 0.60

def detectProcess (process : ProcessSnapshot) : DetectedProcess :=
  ⟨process, detectWorkloadProcess process⟩

theorem detectedProcesses_eq (snapshot : SystemSnapshot) :
    detectedProcesses snapshot = (snapshot.processes.filter isDetected).map detectProcess := by
  unfold detectedProcesses
  induction snapshot.processes with
  | nil => rfl
  | cons process processes ih =>
    rw [List.filterMap_cons, List.filter_cons, ih]
    cases h : Double.lt (detectWorkloadProcess process).confidence 0.60 <;>
      simp [isDetected, h, detectProcess]

theorem mem_detectedProcesses {snapshot : SystemSnapshot} {item : DetectedProcess} :
    item ∈ detectedProcesses snapshot ↔ ∃ process ∈ snapshot.processes,
      isDetected process = true ∧ detectProcess process = item := by
  simp [detectedProcesses_eq, and_assoc]

theorem detected_pids_nodup {snapshot : SystemSnapshot}
    (hd : (snapshot.processes.map (·.pid)).Nodup) :
    ((detectedProcesses snapshot).map (·.process.pid)).Nodup := by
  rw [detectedProcesses_eq, List.map_map]
  exact hd.sublist (List.filter_sublist.map _)

/-- With distinct pids `detected_by_pid` holds exactly the detected processes. -/
theorem getElem?_detectedByPid {detected : List DetectedProcess}
    (hd : (detected.map (·.process.pid)).Nodup) {pid : ℤ} {item : DetectedProcess} :
    (detectedByPid detected)[pid]? = some item ↔ item ∈ detected ∧ item.process.pid = pid := by
  have distinct : (detected.map fun item => (item.process.pid, item)).Pairwise
      fun a b => ¬ compare a.1 b.1 = .eq :=
    List.pairwise_map.mpr ((List.pairwise_map.mp hd).imp fun h => by simpa using h)
  have held : ∀ item ∈ detected, (detectedByPid detected)[item.process.pid]? = some item :=
    fun item hm => TreeMap.getElem?_ofList_of_mem compare_self distinct
      (List.mem_map.mpr ⟨item, hm, rfl⟩)
  constructor
  · intro h
    by_cases hex : ∃ item' ∈ detected, item'.process.pid = pid
    · obtain ⟨item', hm, rfl⟩ := hex
      rw [held item' hm] at h
      cases h
      exact ⟨hm, rfl⟩
    · have hnone : (detectedByPid detected)[pid]? = none :=
        TreeMap.getElem?_ofList_of_contains_eq_false (by simpa using hex)
      rw [hnone] at h
      cases h
  · rintro ⟨hm, rfl⟩
    exact held item hm

/-! ## A group as the fold over its processes -/

/-- The map entry that the grouping loop leaves after these processes. -/
def groupOf (items : List DetectedProcess) : Group := (entry accumulate items).getD {}

@[simp] theorem groupOf_concat (items : List DetectedProcess) (item : DetectedProcess) :
    groupOf (items ++ [item]) = accumulate (some (groupOf items)) item := by
  rw [groupOf, entry_concat]
  rfl

section Accumulate
variable (group : Group) (item : DetectedProcess)

@[simp] theorem accumulate_processes : (accumulate (some group) item).workload.processes =
    group.workload.processes ++ [processRef item] := by
  simp only [accumulate, Option.getD_some]
  split <;> split <;> simp [representWorkload, addProcess, seedWorkload, mergeWorkload]

@[simp] theorem accumulate_residentBytes : (accumulate (some group) item).workload.residentBytes =
    group.workload.residentBytes + item.process.residentBytes := by
  simp only [accumulate, Option.getD_some]
  split <;> split <;> rfl

@[simp] theorem accumulate_virtualBytes : (accumulate (some group) item).workload.virtualBytes =
    group.workload.virtualBytes + item.process.virtualBytes := by
  simp only [accumulate, Option.getD_some]
  split <;> split <;> rfl

@[simp] theorem accumulate_cpuPercent : (accumulate (some group) item).workload.cpuPercent =
    group.workload.cpuPercent + item.process.cpuPercent := by
  simp only [accumulate, Option.getD_some]
  split <;> split <;> rfl

@[simp] theorem accumulate_memoryPercent : (accumulate (some group) item).workload.memoryPercent =
    group.workload.memoryPercent + item.process.memoryPercent := by
  simp only [accumulate, Option.getD_some]
  split <;> split <;> rfl

@[simp] theorem accumulate_gpuActive : (accumulate (some group) item).workload.gpuActive =
    (group.workload.gpuActive || item.process.gpuActive) := by
  simp only [accumulate, Option.getD_some]
  split <;> split <;> rfl

@[simp] theorem accumulate_kind : (accumulate (some group) item).workload.kind =
    if group.workload.processes = [] then item.detection.kind else group.workload.kind := by
  simp only [accumulate, Option.getD_some]
  split <;> split <;> rfl

end Accumulate

theorem groupOf_processes (items : List DetectedProcess) :
    (groupOf items).workload.processes = items.map processRef := by
  induction items using List.reverseRecOn with
  | nil => rfl
  | append_singleton items item ih => simp [ih]

/-- A workload has the kind of its first process. -/
theorem groupOf_kind (items : List DetectedProcess) (kind : WorkloadKind)
    (hk : ∀ item ∈ items, item.detection.kind = kind) (hne : items ≠ []) :
    (groupOf items).workload.kind = kind := by
  induction items using List.reverseRecOn with
  | nil => exact absurd rfl hne
  | append_singleton items item ih =>
    rw [groupOf_concat, accumulate_kind, groupOf_processes]
    split
    · exact hk item (by simp)
    · next h =>
      refine ih (fun other ho => hk other (List.mem_append_left _ ho)) fun e => h ?_
      rw [e, List.map_nil]

theorem groupOf_gpuActive (items : List DetectedProcess) :
    (groupOf items).workload.gpuActive = items.any (·.process.gpuActive) := by
  induction items using List.reverseRecOn with
  | nil => rfl
  | append_singleton items item ih => simp [ih]

/-- The sums wrap at 64 bits. -/
theorem groupOf_residentBytes (items : List DetectedProcess) :
    (groupOf items).workload.residentBytes.toNat =
      (items.map (·.process.residentBytes.toNat)).sum % 2 ^ 64 := by
  induction items using List.reverseRecOn with
  | nil => rfl
  | append_singleton items item ih => simp [ih, UInt64.toNat_add]

theorem groupOf_virtualBytes (items : List DetectedProcess) :
    (groupOf items).workload.virtualBytes.toNat =
      (items.map (·.process.virtualBytes.toNat)).sum % 2 ^ 64 := by
  induction items using List.reverseRecOn with
  | nil => rfl
  | append_singleton items item ih => simp [ih, UInt64.toNat_add]

theorem groupOf_cpuPercent (items : List DetectedProcess) :
    (groupOf items).workload.cpuPercent = (items.map (·.process.cpuPercent)).foldl (· + ·) 0 := by
  induction items using List.reverseRecOn with
  | nil => rfl
  | append_singleton items item ih => simp [ih]

theorem groupOf_memoryPercent (items : List DetectedProcess) :
    (groupOf items).workload.memoryPercent =
      (items.map (·.process.memoryPercent)).foldl (· + ·) 0 := by
  induction items using List.reverseRecOn with
  | nil => rfl
  | append_singleton items item ih => simp [ih]

/-! ## The workloads of a snapshot -/

section Workloads
variable (σ : StdSort)

def keyOf (snapshot : SystemSnapshot) (item : DetectedProcess) : Text :=
  groupingKey item (detectedByPid (detectedProcesses snapshot))

/-- The detected processes under one grouping key, in snapshot order. -/
def groupMembers (snapshot : SystemSnapshot) (key : Text) : List DetectedProcess :=
  bucket (keyOf snapshot) (detectedProcesses snapshot) key

/-- The grouping keys in use, in the order of the map. -/
def groupKeys (snapshot : SystemSnapshot) : List Text :=
  (groupFold (keyOf snapshot) accumulate (detectedProcesses snapshot)).keys

def workloadOf (snapshot : SystemSnapshot) (key : Text) : WorkloadSnapshot :=
  finishWorkload σ (groupOf (groupMembers snapshot key)).workload

theorem mem_groupKeys {snapshot : SystemSnapshot} {key : Text} :
    key ∈ groupKeys snapshot ↔ ∃ item ∈ detectedProcesses snapshot, keyOf snapshot item = key :=
  mem_keys_groupFold _ _

theorem nodup_groupKeys (snapshot : SystemSnapshot) : (groupKeys snapshot).Nodup :=
  nodup_keys_groupFold _ _ _

theorem mem_groupMembers {snapshot : SystemSnapshot} {key : Text} {item : DetectedProcess} :
    item ∈ groupMembers snapshot key ↔
      item ∈ detectedProcesses snapshot ∧ keyOf snapshot item = key :=
  mem_bucket _

theorem groupMembers_ne_nil {snapshot : SystemSnapshot} {key : Text}
    (h : key ∈ groupKeys snapshot) : groupMembers snapshot key ≠ [] := by
  obtain ⟨item, hm, hk⟩ := mem_groupKeys.mp h
  exact List.ne_nil_of_mem (mem_groupMembers.mpr ⟨hm, hk⟩)

theorem groupMembers_perm (snapshot : SystemSnapshot) :
    ((groupKeys snapshot).flatMap (groupMembers snapshot)).Perm (detectedProcesses snapshot) :=
  flatMap_bucket_perm _ _ _ (nodup_groupKeys snapshot) fun item hm =>
    mem_groupKeys.mpr ⟨item, hm, rfl⟩

theorem buildWorkloads_eq (snapshot : SystemSnapshot) :
    buildWorkloads σ snapshot =
      σ.sort workloadLess ((groupKeys snapshot).map (workloadOf σ snapshot)) := by
  have h := toList_groupFold (keyOf snapshot) accumulate (detectedProcesses snapshot) {}
  unfold buildWorkloads
  dsimp only
  change σ.sort workloadLess ((groupFold (keyOf snapshot) accumulate
    (detectedProcesses snapshot)).toList.map _) = _
  rw [h, List.map_map]
  rfl

theorem buildWorkloads_perm (snapshot : SystemSnapshot) :
    (buildWorkloads σ snapshot).Perm ((groupKeys snapshot).map (workloadOf σ snapshot)) := by
  rw [buildWorkloads_eq]
  exact σ.perm _ _

end Workloads
end Mtop
