import Mtop.Model.WorkloadTotals

/-! When a parent and its child share a workload. The child is keyed by its parent, but the parent
itself is keyed by its own parent, its model hint or its own pid; only an Ollama manager is keyed
by itself as well, and there the lowest pid among the candidates wins. -/
namespace Mtop
open Cxx Std
set_option autoImplicit false

/-- Outside Ollama the manager rule never applies. -/
theorem groupingRule_of_not_ollama {item : DetectedProcess} {byPid : TreeMap ℤ DetectedProcess}
    (ho : item.detection.kind ≠ .ollama) :
    groupingRule item byPid =
      match sameKindParent item byPid with
      | some parent => .parent parent.process.pid
      | none => if item.detection.modelHint ≠ [] then .model item.detection.modelHint
        else .pid item.process.pid := by
  cases h : sameKindParent item byPid with
  | none => simp only [groupingRule, if_neg ho, h]
  | some parent => simp only [groupingRule, if_neg ho, h]

theorem groupingRule_of_owner {item owner : DetectedProcess} {byPid : TreeMap ℤ DetectedProcess}
    (ho : item.detection.kind = .ollama) (h : owningManager item byPid = some owner) :
    groupingRule item byPid = .manager owner.process.pid := by
  rw [groupingRule, if_pos ho, h]

section Family
variable (σ : StdSort)

/-- One workload lists both processes. -/
def SameWorkload (snapshot : SystemSnapshot) (p q : ProcessSnapshot) : Prop :=
  ∃ w ∈ buildWorkloads σ snapshot,
    p.pid ∈ w.processes.map (·.pid) ∧ q.pid ∈ w.processes.map (·.pid)

instance (snapshot : SystemSnapshot) (p q : ProcessSnapshot) :
    Decidable (SameWorkload σ snapshot p q) :=
  inferInstanceAs (Decidable (∃ w ∈ buildWorkloads σ snapshot, _))

theorem mem_workloadOf_pids {snapshot : SystemSnapshot} {key : Text} {pid : ℤ} :
    pid ∈ (workloadOf σ snapshot key).processes.map (·.pid) ↔
      ∃ item ∈ groupMembers snapshot key, item.process.pid = pid := by
  rw [((workloadOf_processes σ snapshot key).map _).mem_iff, List.map_map]
  simp [processRef]

variable {snapshot : SystemSnapshot} (hd : (snapshot.processes.map (·.pid)).Nodup)
include hd

theorem detected_eq_of_pid {a b : DetectedProcess} (ha : a ∈ detectedProcesses snapshot)
    (hb : b ∈ detectedProcesses snapshot) (h : a.process.pid = b.process.pid) : a = b :=
  List.inj_on_of_nodup_map (detected_pids_nodup hd) ha hb h

/-- With distinct pids, sharing a workload is having one grouping key. -/
theorem sameWorkload_iff {a b : DetectedProcess} (ha : a ∈ detectedProcesses snapshot)
    (hb : b ∈ detectedProcesses snapshot) :
    SameWorkload σ snapshot a.process b.process ↔ keyOf snapshot a = keyOf snapshot b := by
  have hkey : ∀ item ∈ detectedProcesses snapshot, ∀ key,
      item.process.pid ∈ (workloadOf σ snapshot key).processes.map (·.pid) →
        keyOf snapshot item = key := by
    intro item hitem key h
    obtain ⟨other, ho, hpid⟩ := (mem_workloadOf_pids σ).mp h
    obtain ⟨hod, hok⟩ := mem_groupMembers.mp ho
    rw [detected_eq_of_pid hd hitem hod hpid.symm, hok]
  constructor
  · rintro ⟨w, hw, hpa, hpb⟩
    obtain ⟨key, -, rfl⟩ := List.mem_map.mp ((buildWorkloads_perm σ snapshot).mem_iff.mp hw)
    rw [hkey a ha key hpa, hkey b hb key hpb]
  · intro h
    refine ⟨workloadOf σ snapshot (keyOf snapshot a), ?_, ?_, ?_⟩
    · refine (buildWorkloads_perm σ snapshot).mem_iff.mpr (List.mem_map_of_mem ?_)
      exact mem_groupKeys.mpr ⟨a, ha, rfl⟩
    · exact (mem_workloadOf_pids σ).mpr ⟨a, mem_groupMembers.mpr ⟨ha, rfl⟩, rfl⟩
    · exact (mem_workloadOf_pids σ).mpr ⟨b, mem_groupMembers.mpr ⟨hb, h.symm⟩, rfl⟩

/-! ## Parent and child of one kind -/

theorem sameKindParent_eq_some {item parent : DetectedProcess} :
    sameKindParent item (detectedByPid (detectedProcesses snapshot)) = some parent ↔
      (parent ∈ detectedProcesses snapshot ∧ parent.process.pid = item.process.parentPid) ∧
        parent.detection.kind = item.detection.kind := by
  unfold sameKindParent
  rw [Option.filter_eq_some_iff, getElem?_detectedByPid (detected_pids_nodup hd)]
  simp

/-- Outside Ollama a child shares its parent's workload only if the parent is its own parent. -/
theorem sameWorkload_parent_iff {p q : ProcessSnapshot} (hp : p ∈ snapshot.processes)
    (hq : q ∈ snapshot.processes) (hdp : isDetected p = true) (hdq : isDetected q = true)
    (hkind : (detectWorkloadProcess p).kind = (detectWorkloadProcess q).kind)
    (hollama : (detectWorkloadProcess p).kind ≠ .ollama) (hparent : q.parentPid = p.pid) :
    SameWorkload σ snapshot p q ↔ p.parentPid = p.pid := by
  have hpm : detectProcess p ∈ detectedProcesses snapshot := mem_detectedProcesses.mpr ⟨p, hp, hdp, rfl⟩
  have hqm : detectProcess q ∈ detectedProcesses snapshot := mem_detectedProcesses.mpr ⟨q, hq, hdq, rfl⟩
  have hchild : sameKindParent (detectProcess q) (detectedByPid (detectedProcesses snapshot)) =
      some (detectProcess p) :=
    (sameKindParent_eq_some hd).mpr ⟨⟨hpm, hparent.symm⟩, hkind⟩
  rw [show SameWorkload σ snapshot p q = SameWorkload σ snapshot (detectProcess p).process
    (detectProcess q).process from rfl, sameWorkload_iff σ hd hpm hqm]
  unfold keyOf
  rw [groupingKey_inj, groupingRule_of_not_ollama (show (detectProcess p).detection.kind ≠ .ollama from hollama),
    groupingRule_of_not_ollama (show (detectProcess q).detection.kind ≠ .ollama from hkind ▸ hollama),
    hchild]
  constructor
  · rintro ⟨-, h⟩
    cases hup : sameKindParent (detectProcess p) (detectedByPid (detectedProcesses snapshot)) with
    | some up =>
      rw [hup] at h
      have hpid := ((sameKindParent_eq_some hd).mp hup).1.2
      exact hpid.symm.trans (GroupingRule.parent.inj h)
    | none =>
      rw [hup] at h
      dsimp only at h
      split at h <;> cases h
  · intro h
    have hself : sameKindParent (detectProcess p) (detectedByPid (detectedProcesses snapshot)) =
        some (detectProcess p) := (sameKindParent_eq_some hd).mpr ⟨⟨hpm, h.symm⟩, rfl⟩
    exact ⟨hkind, by rw [hself]⟩

end Family

def llamaServer (pid parentPid : ℤ) : ProcessSnapshot :=
  { pid, parentPid, name := str "llama-server", command := str "llama-server" }

/-- A parent and its child. -/
def llamaFamily : SystemSnapshot := { processes := [llamaServer 10 1, llamaServer 11 10] }

theorem llamaFamily_reading :
    (∀ p ∈ llamaFamily.processes, isDetected p = true ∧ (detectWorkloadProcess p).kind = .llamaCpp) ∧
      ¬ SameWorkload .insertion llamaFamily (llamaServer 10 1) (llamaServer 11 10) := by
  decide +kernel

/-- The child's key names the parent, the parent's key its own pid. -/
theorem llamaFamily_split :
    (llamaFamily.processes.map (·.pid)).Nodup ∧
      (∀ p ∈ llamaFamily.processes, isDetected p = true ∧
        (detectWorkloadProcess p).kind = .llamaCpp) ∧
      (llamaServer 11 10).parentPid = (llamaServer 10 1).pid ∧
      ¬ SameWorkload .insertion llamaFamily (llamaServer 10 1) (llamaServer 11 10) :=
  ⟨by decide, llamaFamily_reading.1, rfl, llamaFamily_reading.2⟩

theorem sameWorkload_parent_iff_llamaFamily :
    SameWorkload .insertion llamaFamily (llamaServer 10 1) (llamaServer 11 10) ↔ (1 : ℤ) = 10 := by
  have hparent : llamaServer 10 1 ∈ llamaFamily.processes := List.mem_cons_self
  have hchild : llamaServer 11 10 ∈ llamaFamily.processes :=
    List.mem_cons_of_mem _ List.mem_cons_self
  obtain ⟨hdetected, hkind⟩ := llamaFamily_reading.1 _ hparent
  obtain ⟨hdetected', hkind'⟩ := llamaFamily_reading.1 _ hchild
  exact sameWorkload_parent_iff .insertion (by decide) hparent hchild hdetected hdetected'
    (hkind.trans hkind'.symm) (by rw [hkind]; decide) rfl

section Managers
variable (σ : StdSort)
variable {snapshot : SystemSnapshot} (hd : (snapshot.processes.map (·.pid)).Nodup)
include hd

/-! ## An Ollama manager and its child -/

/-- `owner` is a manager that the manager rule accepts for `item`. -/
def Owns (owner item : DetectedProcess) : Prop :=
  isOllamaManager owner = true ∧
    (item.process.parentPid = owner.process.pid ∨ item.process.pid = owner.process.pid)

theorem mem_detectedByPid_toList {item : DetectedProcess} :
    item ∈ (detectedByPid (detectedProcesses snapshot)).toList.map Prod.snd ↔
      item ∈ detectedProcesses snapshot := by
  rw [List.mem_map]
  constructor
  · rintro ⟨⟨pid, item'⟩, hm, rfl⟩
    have h := TreeMap.mem_toList_iff_getElem?_eq_some.mp hm
    exact ((getElem?_detectedByPid (detected_pids_nodup hd)).mp h).1
  · intro hm
    refine ⟨(item.process.pid, item), TreeMap.mem_toList_iff_getElem?_eq_some.mpr ?_, rfl⟩
    exact (getElem?_detectedByPid (detected_pids_nodup hd)).mpr ⟨hm, rfl⟩

theorem detectedByPid_toList_sorted :
    ((detectedByPid (detectedProcesses snapshot)).toList.map Prod.snd).Pairwise
      fun a b => a.process.pid < b.process.pid := by
  rw [List.pairwise_map]
  refine (TreeMap.ordered_keys_toList).imp_of_mem fun {a b} ha hb hlt => ?_
  have hpid : ∀ p ∈ (detectedByPid (detectedProcesses snapshot)).toList, p.2.process.pid = p.1 :=
    fun p hp => ((getElem?_detectedByPid (detected_pids_nodup hd)).mp
      (TreeMap.mem_toList_iff_getElem?_eq_some.mp hp)).2
  rw [hpid a ha, hpid b hb]
  exact compare_lt_iff_lt.mp hlt

/-- The scan in pid order stops at the candidate with the lowest pid. -/
theorem owningManager_eq_some {item owner : DetectedProcess} :
    owningManager item (detectedByPid (detectedProcesses snapshot)) = some owner ↔
      owner ∈ detectedProcesses snapshot ∧ Owns owner item ∧
        ∀ other ∈ detectedProcesses snapshot, Owns other item →
          owner.process.pid ≤ other.process.pid := by
  unfold owningManager
  rw [find?_eq_some_iff_least (fun d : DetectedProcess => d.process.pid)
    (detectedByPid_toList_sorted hd)]
  simp only [mem_detectedByPid_toList hd, Bool.and_eq_true, Bool.or_eq_true, decide_eq_true_eq]
  rfl

/-- A manager is keyed by itself, or by a manager parent with a lower pid. -/
theorem owningManager_of_manager {m : DetectedProcess} (hm : m ∈ detectedProcesses snapshot)
    (hman : isOllamaManager m = true) :
    ∃ a, owningManager m (detectedByPid (detectedProcesses snapshot)) = some a ∧
      ((a = m ∧ ∀ g ∈ detectedProcesses snapshot, isOllamaManager g = true →
          g.process.pid = m.process.parentPid → m.process.pid ≤ g.process.pid) ∨
        (isOllamaManager a = true ∧ a ∈ detectedProcesses snapshot ∧
          a.process.pid = m.process.parentPid ∧ a.process.pid < m.process.pid)) := by
  by_cases hup : ∃ g ∈ detectedProcesses snapshot, isOllamaManager g = true ∧
      g.process.pid = m.process.parentPid ∧ g.process.pid < m.process.pid
  · obtain ⟨g, hg, hgm, hpid, hlt⟩ := hup
    refine ⟨g, (owningManager_eq_some hd).mpr ⟨hg, ⟨hgm, .inl hpid.symm⟩, ?_⟩,
      .inr ⟨hgm, hg, hpid, hlt⟩⟩
    rintro other - ⟨-, h | h⟩
    · omega
    · omega
  · push Not at hup
    refine ⟨m, (owningManager_eq_some hd).mpr ⟨hm, ⟨hman, .inr rfl⟩, ?_⟩, .inl ⟨rfl, hup⟩⟩
    rintro other ho ⟨hom, h | h⟩
    · exact hup other ho hom h.symm
    · exact h.le

/-- The child of a manager is keyed by that manager, or by itself when it is a manager with a
lower pid. -/
theorem owningManager_of_child {m c : DetectedProcess} (hm : m ∈ detectedProcesses snapshot)
    (hman : isOllamaManager m = true) (hc : c ∈ detectedProcesses snapshot)
    (hparent : c.process.parentPid = m.process.pid) :
    owningManager c (detectedByPid (detectedProcesses snapshot)) =
      some (if isOllamaManager c = true ∧ c.process.pid < m.process.pid then c else m) := by
  rw [owningManager_eq_some hd]
  split
  · next h =>
    refine ⟨hc, ⟨h.1, .inr rfl⟩, ?_⟩
    rintro other - ⟨-, ho | ho⟩ <;> omega
  · next h =>
    refine ⟨hm, ⟨hman, .inl hparent⟩, ?_⟩
    rintro other ho ⟨hom, h' | h'⟩
    · omega
    · have hoc := detected_eq_of_pid hd hc ho h'
      subst hoc
      push Not at h
      exact h hom

/-! ## When manager and child meet -/

omit hd in
/-- Every process labelled with a kind was detected. -/
theorem isDetected_of_kind {p : ProcessSnapshot} (h : (detectWorkloadProcess p).kind ≠ .unknown) :
    isDetected p = true := by
  have hrules : ∀ rule ∈ detectionRules, rule.1 ≠ .unknown → Double.lt rule.2.2 0.60 = false := by
    decide +kernel
  simpa [isDetected] using hrules _ (detect_followsRule p) h

/-- An Ollama process with role Manager. -/
def IsManager (p : ProcessSnapshot) : Prop :=
  (detectWorkloadProcess p).kind = .ollama ∧ (detectWorkloadProcess p).role = .manager

instance (p : ProcessSnapshot) : Decidable (IsManager p) :=
  inferInstanceAs (Decidable (_ ∧ _))

omit hd in
theorem isOllamaManager_detectProcess {p : ProcessSnapshot} :
    isOllamaManager (detectProcess p) = true ↔ IsManager p := by
  simp only [isOllamaManager, Bool.and_eq_true, decide_eq_true_eq]
  rfl

/-- The manager rule keys `m` by its own parent. -/
def KeyedByParent (snapshot : SystemSnapshot) (m : ProcessSnapshot) : Prop :=
  ∃ g ∈ snapshot.processes, IsManager g ∧ g.pid = m.parentPid ∧ g.pid < m.pid

instance (snapshot : SystemSnapshot) (m : ProcessSnapshot) : Decidable (KeyedByParent snapshot m) :=
  inferInstanceAs (Decidable (∃ g ∈ snapshot.processes, _))

omit hd in
theorem mem_detectedProcesses_of_ollama {p : ProcessSnapshot} (hp : p ∈ snapshot.processes)
    (hkind : (detectWorkloadProcess p).kind = .ollama) :
    detectProcess p ∈ detectedProcesses snapshot :=
  mem_detectedProcesses.mpr ⟨p, hp, isDetected_of_kind (by rw [hkind]; decide), rfl⟩

/-- The pid that a manager is keyed by. -/
theorem ownerPid_of_manager {m : ProcessSnapshot} (hm : m ∈ snapshot.processes)
    (hman : IsManager m) :
    ∃ a, owningManager (detectProcess m) (detectedByPid (detectedProcesses snapshot)) = some a ∧
      a.process.pid = if KeyedByParent snapshot m then m.parentPid else m.pid := by
  obtain ⟨a, ha, ⟨rfl, hleast⟩ | ⟨haman, had, hapid, halt⟩⟩ := owningManager_of_manager hd
    (mem_detectedProcesses_of_ollama hm hman.1) (isOllamaManager_detectProcess.mpr hman)
  · refine ⟨_, ha, (if_neg ?_).symm⟩
    rintro ⟨g, hg, hgm, hgp, hglt⟩
    have hle : m.pid ≤ g.pid := hleast (detectProcess g)
      (mem_detectedProcesses_of_ollama hg hgm.1) (isOllamaManager_detectProcess.mpr hgm) hgp
    omega
  · obtain ⟨g, hg, -, rfl⟩ := mem_detectedProcesses.mp had
    refine ⟨_, ha, ?_⟩
    rw [if_pos ⟨g, hg, isOllamaManager_detectProcess.mp haman, hapid, halt⟩]
    exact hapid

/-- The pid that the child of a manager is keyed by. -/
theorem ownerPid_of_child {m c : ProcessSnapshot} (hm : m ∈ snapshot.processes)
    (hc : c ∈ snapshot.processes) (hman : IsManager m)
    (hkind : (detectWorkloadProcess c).kind = .ollama) (hparent : c.parentPid = m.pid) :
    ∃ b, owningManager (detectProcess c) (detectedByPid (detectedProcesses snapshot)) = some b ∧
      b.process.pid = if IsManager c ∧ c.pid < m.pid then c.pid else m.pid := by
  refine ⟨_, owningManager_of_child hd (mem_detectedProcesses_of_ollama hm hman.1)
    (isOllamaManager_detectProcess.mpr hman) (mem_detectedProcesses_of_ollama hc hkind) hparent, ?_⟩
  have hcond : (isOllamaManager (detectProcess c) = true ∧
      (detectProcess c).process.pid < (detectProcess m).process.pid) ↔
        (IsManager c ∧ c.pid < m.pid) :=
    and_congr_left' isOllamaManager_detectProcess
  by_cases h : IsManager c ∧ c.pid < m.pid
  · rw [if_pos (hcond.mpr h), if_pos h]
    rfl
  · rw [if_neg (mt hcond.mp h), if_neg h]
    rfl

/-- Two Ollama processes with owners share a workload when the owners have one pid. -/
theorem sameWorkload_iff_owners {p q : ProcessSnapshot} (hp : p ∈ snapshot.processes)
    (hq : q ∈ snapshot.processes) (hpk : (detectWorkloadProcess p).kind = .ollama)
    (hqk : (detectWorkloadProcess q).kind = .ollama) {a b : DetectedProcess}
    (ha : owningManager (detectProcess p) (detectedByPid (detectedProcesses snapshot)) = some a)
    (hb : owningManager (detectProcess q) (detectedByPid (detectedProcesses snapshot)) = some b) :
    SameWorkload σ snapshot p q ↔ a.process.pid = b.process.pid := by
  have hdetected : SameWorkload σ snapshot p q = SameWorkload σ snapshot
      (detectProcess p).process (detectProcess q).process := rfl
  rw [hdetected, sameWorkload_iff σ hd (mem_detectedProcesses_of_ollama hp hpk)
    (mem_detectedProcesses_of_ollama hq hqk)]
  unfold keyOf
  rw [groupingKey_inj, groupingRule_of_owner hpk ha, groupingRule_of_owner hqk hb,
    GroupingRule.manager.injEq]
  exact and_iff_right (hpk.trans hqk.symm)

/-- A manager and its child share a workload exactly when neither is keyed by another manager
with a lower pid, or each is the other's parent. -/
theorem sameWorkload_manager_iff {m c : ProcessSnapshot} (hm : m ∈ snapshot.processes)
    (hc : c ∈ snapshot.processes) (hman : IsManager m)
    (hkind : (detectWorkloadProcess c).kind = .ollama) (hparent : c.parentPid = m.pid) :
    SameWorkload σ snapshot m c ↔
      (¬ KeyedByParent snapshot m ∧ ¬ (IsManager c ∧ c.pid < m.pid)) ∨
        (m.parentPid = c.pid ∧ IsManager c) := by
  obtain ⟨a, ha, hapid⟩ := ownerPid_of_manager hd hm hman
  obtain ⟨b, hb, hbpid⟩ := ownerPid_of_child hd hm hc hman hkind hparent
  rw [sameWorkload_iff_owners σ hd hm hc hman.1 hkind ha hb, hapid, hbpid]
  by_cases hkeyed : KeyedByParent snapshot m
  · rw [if_pos hkeyed]
    by_cases h : IsManager c ∧ c.pid < m.pid
    · rw [if_pos h]
      constructor
      · exact fun e => .inr ⟨e, h.1⟩
      · rintro (⟨hn, -⟩ | ⟨e, -⟩)
        · exact absurd hkeyed hn
        · exact e
    · rw [if_neg h]
      have hlower : m.parentPid < m.pid := by
        obtain ⟨g, -, -, hgp, hglt⟩ := hkeyed
        omega
      refine iff_of_false hlower.ne ?_
      rintro (⟨hn, -⟩ | ⟨e, hcman⟩)
      · exact hn hkeyed
      · exact h ⟨hcman, by omega⟩
  · rw [if_neg hkeyed]
    by_cases h : IsManager c ∧ c.pid < m.pid
    · rw [if_pos h]
      refine iff_of_false (by omega) ?_
      rintro (⟨-, hn⟩ | ⟨e, hcman⟩)
      · exact hn h
      · exact hkeyed ⟨c, hc, hcman, e.symm, h.2⟩
    · rw [if_neg h]
      exact iff_of_true rfl (.inl ⟨hkeyed, h⟩)

end Managers

def ollama (pid parentPid : ℤ) : ProcessSnapshot :=
  { pid, parentPid, name := str "ollama", command := str "ollama serve" }

def ollamaRunner (pid parentPid : ℤ) : ProcessSnapshot :=
  { pid, parentPid, name := str "ollama_llama_server", command := str "ollama runner" }

/-- A manager started by another one, and its runner. -/
def ollamaChain : SystemSnapshot :=
  { processes := [ollama 10 1, ollama 20 10, ollamaRunner 30 20] }

theorem ollamaChain_reading :
    (IsManager (ollama 20 10) ∧ isDetected (ollamaRunner 30 20) = true ∧
      (detectWorkloadProcess (ollamaRunner 30 20)).kind = .ollama) ∧
      ¬ SameWorkload .insertion ollamaChain (ollama 20 10) (ollamaRunner 30 20) := by
  decide +kernel

/-- The inner manager is keyed by the outer one, its runner by the inner one. -/
theorem ollamaChain_split :
    (ollamaChain.processes.map (·.pid)).Nodup ∧ IsManager (ollama 20 10) ∧
      isDetected (ollamaRunner 30 20) = true ∧
      (detectWorkloadProcess (ollamaRunner 30 20)).kind = .ollama ∧
      (ollamaRunner 30 20).parentPid = (ollama 20 10).pid ∧
      ¬ SameWorkload .insertion ollamaChain (ollama 20 10) (ollamaRunner 30 20) := by
  obtain ⟨⟨hmanager, hdetected, hkind⟩, hsplit⟩ := ollamaChain_reading
  exact ⟨by decide, hmanager, hdetected, hkind, rfl, hsplit⟩

theorem sameWorkload_manager_iff_ollamaChain :
    SameWorkload .insertion ollamaChain (ollama 20 10) (ollamaRunner 30 20) ↔
      (¬ KeyedByParent ollamaChain (ollama 20 10) ∧
        ¬ (IsManager (ollamaRunner 30 20) ∧ (30 : ℤ) < 20)) ∨
        ((10 : ℤ) = 30 ∧ IsManager (ollamaRunner 30 20)) := by
  obtain ⟨⟨hmanager, -, hkind⟩, -⟩ := ollamaChain_reading
  have hinner : ollama 20 10 ∈ ollamaChain.processes := List.mem_cons_of_mem _ List.mem_cons_self
  have hrunner : ollamaRunner 30 20 ∈ ollamaChain.processes :=
    List.mem_cons_of_mem _ (List.mem_cons_of_mem _ List.mem_cons_self)
  exact sameWorkload_manager_iff .insertion (by decide) hinner hrunner hmanager hkind rfl

end Mtop
