import Mtop.Model.WorkloadIdentity

/-! What the order of the processes in a snapshot decides. Grouping keys, members and totals do not
depend on it; the name and the hint of a workload do, when its most confident members disagree. -/
namespace Mtop
open Cxx
set_option autoImplicit false

def reordered (snapshot : SystemSnapshot) (processes : List ProcessSnapshot) : SystemSnapshot :=
  { snapshot with processes }

/-- What identifies a workload to its readers. -/
structure Summary where
  id : Text
  kind : WorkloadKind
  name : Text
  modelHint : Text
  pids : List ℤ
  residentBytes : UInt64
  virtualBytes : UInt64
  gpuActive : Bool
  deriving DecidableEq

def summary (w : WorkloadSnapshot) : Summary :=
  ⟨w.id, w.kind, w.name, w.modelHint, w.processes.map (·.pid), w.residentBytes, w.virtualBytes,
    w.gpuActive⟩

/-! ## Keys and members -/

/-- The process is detected and grouped under `key`. -/
def inGroup (snapshot : SystemSnapshot) (key : Text) (process : ProcessSnapshot) : Bool :=
  isDetected process && decide (keyOf snapshot (detectProcess process) = key)

theorem groupMembers_eq (snapshot : SystemSnapshot) (key : Text) :
    groupMembers snapshot key =
      (snapshot.processes.filter (inGroup snapshot key)).map detectProcess := by
  rw [groupMembers, detectedProcesses_eq, bucket, List.filter_map, List.filter_filter]
  exact congrArg _ (List.filter_congr fun p _ => Bool.and_comm _ _)

/-- An order of the images is the image of an order. -/
theorem exists_perm_map {α β : Type} (f : α → β) {l : List α} {m : List β} (h : m.Perm (l.map f)) :
    ∃ l' : List α, l'.Perm l ∧ l'.map f = m := by
  have hf : List.Forall₂ (fun b a => b = f a) (l.map f) l :=
    List.forall₂_map_left_iff.mpr (List.forall₂_same.mpr fun a _ => rfl)
  obtain ⟨l', hl', hp⟩ := List.perm_comp_forall₂ h hf
  refine ⟨l', hp, ?_⟩
  rw [← List.forall₂_map_right_iff (R := Eq)] at hl'
  exact (List.forall₂_eq_eq_eq ▸ hl').symm

section Order
variable (σ : StdSort) {snapshot : SystemSnapshot} {processes : List ProcessSnapshot}
variable (hd : (snapshot.processes.map (·.pid)).Nodup)
variable (hp : processes.Perm snapshot.processes)
include hp

theorem detectedProcesses_reordered :
    (detectedProcesses (reordered snapshot processes)).Perm (detectedProcesses snapshot) := by
  rw [detectedProcesses_eq, detectedProcesses_eq]
  exact (hp.filter _).map _

include hd

theorem reordered_nodup : ((reordered snapshot processes).processes.map (·.pid)).Nodup :=
  (hp.map _).nodup_iff.mpr hd

theorem keyOf_reordered (item : DetectedProcess) :
    keyOf (reordered snapshot processes) item = keyOf snapshot item := by
  have hmem : ∀ other, other ∈ detectedProcesses (reordered snapshot processes) ↔
      other ∈ detectedProcesses snapshot := fun _ => (detectedProcesses_reordered hp).mem_iff
  have howner : owningManager item (detectedByPid (detectedProcesses (reordered snapshot processes))) =
      owningManager item (detectedByPid (detectedProcesses snapshot)) := by
    ext owner
    rw [owningManager_eq_some hd, owningManager_eq_some (reordered_nodup hd hp)]
    simp only [hmem]
  have hparent : sameKindParent item (detectedByPid (detectedProcesses (reordered snapshot processes))) =
      sameKindParent item (detectedByPid (detectedProcesses snapshot)) := by
    ext parent
    rw [sameKindParent_eq_some hd, sameKindParent_eq_some (reordered_nodup hd hp)]
    simp only [hmem]
  unfold keyOf
  rw [groupingKey_eq, groupingKey_eq, groupingRule, groupingRule, howner, hparent]

theorem groupMembers_reordered (key : Text) :
    (groupMembers (reordered snapshot processes) key).Perm (groupMembers snapshot key) := by
  have h := (detectedProcesses_reordered hp).filter fun item => decide (keyOf snapshot item = key)
  refine List.Perm.trans (.of_eq ?_) h
  unfold groupMembers bucket
  simp only [keyOf_reordered hd hp]

theorem groupKeys_reordered :
    (groupKeys (reordered snapshot processes)).Perm (groupKeys snapshot) := by
  refine (List.perm_ext_iff_of_nodup (nodup_groupKeys _) (nodup_groupKeys _)).mpr fun key => ?_
  rw [mem_groupKeys, mem_groupKeys]
  simp only [keyOf_reordered hd hp, (detectedProcesses_reordered hp).mem_iff]

omit hp in
/-- Every order of the members of one group comes from an order of the snapshot. -/
theorem exists_reordering {key : Text} {members : List DetectedProcess}
    (hm : members.Perm (groupMembers snapshot key)) :
    ∃ processes, processes.Perm snapshot.processes ∧
      groupMembers (reordered snapshot processes) key = members := by
  obtain ⟨l, hl, rfl⟩ := exists_perm_map detectProcess (groupMembers_eq snapshot key ▸ hm)
  have hperm : (l ++ snapshot.processes.filter fun p => !inGroup snapshot key p).Perm
      snapshot.processes := (hl.append_right _).trans (List.filter_append_perm _ _)
  have hin : ∀ p ∈ l, inGroup snapshot key p = true := fun p hp =>
    (List.mem_filter.mp (hl.mem_iff.mp hp)).2
  have hsame : inGroup (reordered snapshot
      (l ++ snapshot.processes.filter fun p => !inGroup snapshot key p)) key =
        inGroup snapshot key := by
    funext p
    rw [inGroup, keyOf_reordered hd hperm, ← inGroup]
  refine ⟨_, hperm, ?_⟩
  rw [groupMembers_eq, hsame]
  change ((l ++ snapshot.processes.filter fun p => !inGroup snapshot key p).filter
    (inGroup snapshot key)).map detectProcess = _
  rw [List.filter_append, List.filter_eq_self.mpr hin, List.filter_filter]
  simp

end Order

/-! ## Name and hint of a reordered group -/

/-- The most confident members agree on the name, and either agree on one hint or no two hints of
the group differ. -/
structure Unambiguous (items : List DetectedProcess) : Prop where
  name : ∀ a b, Tops items a → Tops items b → displayName a = displayName b
  hint : (∀ a b, Tops items a → Tops items b →
      a.detection.modelHint ≠ [] ∧ a.detection.modelHint = b.detection.modelHint) ∨
    ∀ h ∈ hints items, ∀ h' ∈ hints items, h = h'

theorem Tops.perm {items others : List DetectedProcess} {item : DetectedProcess}
    (h : Tops items item) (hp : items.Perm others) : Tops others item :=
  ⟨hp.mem_iff.mp h.1, fun other ho => h.2 other (hp.mem_iff.mpr ho)⟩

theorem exists_leader {items : List DetectedProcess} (hne : items ≠ []) :
    ∃ r, (leaders [] items).getLast? = some r ∧ Tops items r := by
  cases hl : (leaders [] items).getLast? with
  | none => exact absurd (leaders_getLast?_none hl) hne
  | some r => exact ⟨r, rfl, leaders_getLast?_tops hl⟩

theorem publishedHint_of_leader {items : List DetectedProcess} {r : DetectedProcess}
    (hr : (leaders [] items).getLast? = some r) (hne : r.detection.modelHint ≠ []) :
    publishedHint items = r.detection.modelHint := by
  obtain ⟨before, hb⟩ := List.getLast?_eq_some_iff.mp hr
  rw [publishedHint, hb, hints_append, hints_singleton, if_neg hne]
  exact List.getLastD_concat

/-- A most confident member in front stays the only leader. -/
theorem leaders_of_top_first {top : DetectedProcess} {rest : List DetectedProcess}
    (h : ∀ other ∈ rest, confidence other ≤ confidence top) : leaders [] (top :: rest) = [top] := by
  rw [leaders, if_pos (by simp), leaders_eq_nil (by simp) h, List.append_nil]

theorem publishedHint_of_first {first top : DetectedProcess} {rest : List DetectedProcess}
    (hfirst : first.detection.modelHint ≠ []) (htop : top.detection.modelHint = [])
    (h : ∀ other ∈ rest, confidence other ≤ confidence top) :
    publishedHint (first :: top :: rest) = first.detection.modelHint := by
  have hl : hints (leaders [] (first :: top :: rest)) = [first.detection.modelHint] := by
    rw [leaders, leaders, if_pos (by simp), leaders_eq_nil (by simp) h, List.append_nil,
      hints_append, hints_singleton, if_neg hfirst]
    split
    · rw [hints_singleton, if_pos htop, List.append_nil]
    · rfl
  rw [publishedHint, hl]
  rfl

section Group
variable {items others : List DetectedProcess}

theorem perm_ne_nil (hne : items ≠ []) (hp : others.Perm items) : others ≠ [] := by
  rintro rfl
  exact hne hp.symm.eq_nil

theorem Unambiguous.name_eq (h : Unambiguous items) (hk : OneKind items) (hne : items ≠ [])
    (hp : others.Perm items) : (groupOf others).workload.name = (groupOf items).workload.name := by
  obtain ⟨r, hr, htop⟩ := exists_leader hne
  obtain ⟨r', hr', htop'⟩ := exists_leader (perm_ne_nil hne hp)
  rw [groupOf_name hk hr, groupOf_name (hk.subset hp.subset) hr']
  exact h.name _ _ (htop'.perm hp) htop

theorem Unambiguous.hint_eq (h : Unambiguous items) (hne : items ≠ []) (hp : others.Perm items) :
    publishedHint others = publishedHint items := by
  rcases h.hint with hagree | hsame
  · obtain ⟨r, hr, htop⟩ := exists_leader hne
    obtain ⟨r', hr', htop'⟩ := exists_leader (perm_ne_nil hne hp)
    have hrr := hagree _ _ (htop'.perm hp) htop
    rw [publishedHint_of_leader hr' hrr.1, publishedHint_of_leader hr (hrr.2 ▸ hrr.1)]
    exact hrr.2
  · have hhints : (hints others).Perm (hints items) := (hp.map _).filter _
    by_cases hempty : hints items = []
    · rw [publishedHint_eq_nil.mpr hempty]
      rw [hempty] at hhints
      exact publishedHint_eq_nil.mpr hhints.eq_nil
    · have hempty' : hints others ≠ [] := fun e => hempty ((e ▸ hhints).symm.eq_nil)
      exact hsame _ (hhints.mem_iff.mp (publishedHint_mem hempty')) _ (publishedHint_mem hempty)

/-- A group whose name and hint survive every order is unambiguous. -/
theorem unambiguous_of_stable (hk : OneKind items)
    (hname : ∀ others, others.Perm items →
      (groupOf others).workload.name = (groupOf items).workload.name)
    (hhint : ∀ others, others.Perm items → publishedHint others = publishedHint items) :
    Unambiguous items := by
  have hfirst : ∀ a, Tops items a → (a :: items.erase a).Perm items ∧
      leaders [] (a :: items.erase a) = [a] := fun a ha =>
    ⟨(List.perm_cons_erase ha.1).symm, leaders_of_top_first fun other ho =>
      ha.2 other (List.mem_of_mem_erase ho)⟩
  have hfront : ∀ a, Tops items a → a.detection.modelHint ≠ [] →
      publishedHint items = a.detection.modelHint := by
    intro a ha hne
    rw [← hhint _ (hfirst a ha).1]
    exact publishedHint_of_leader (by rw [(hfirst a ha).2]; rfl) hne
  refine ⟨fun a b ha hb => ?_, ?_⟩
  · have hnameOf : ∀ c, Tops items c → (groupOf items).workload.name = displayName c := by
      intro c hc
      rw [← hname _ (hfirst c hc).1]
      exact groupOf_name (hk.subset (hfirst c hc).1.subset) (by rw [(hfirst c hc).2]; rfl)
    rw [← hnameOf a ha, hnameOf b hb]
  · by_cases hempty : ∃ top, Tops items top ∧ top.detection.modelHint = []
    · obtain ⟨top, htop, hnone⟩ := hempty
      -- Behind `first` this hintless member takes over or ties, and nobody publishes after it.
      have hany : ∀ first ∈ items, first.detection.modelHint ≠ [] →
          publishedHint items = first.detection.modelHint := by
        intro first hf hne
        have hmem : top ∈ items.erase first :=
          (List.mem_erase_of_ne fun e : top = first => hne (e ▸ hnone)).mpr htop.1
        have hperm : (first :: top :: (items.erase first).erase top).Perm items :=
          ((List.perm_cons_erase hmem).symm.cons first).trans (List.perm_cons_erase hf).symm
        rw [← hhint _ hperm]
        exact publishedHint_of_first hne hnone fun other ho =>
          htop.2 other (List.mem_of_mem_erase (List.mem_of_mem_erase ho))
      refine .inr fun h hh h' hh' => ?_
      obtain ⟨hne, f, hf, rfl⟩ := mem_hints.mp hh
      obtain ⟨hne', g, hg, rfl⟩ := mem_hints.mp hh'
      rw [← hany f hf hne, hany g hg hne']
    · push Not at hempty
      refine .inl fun a b ha hb => ⟨hempty a ha, ?_⟩
      rw [← hfront a ha (hempty a ha), hfront b hb (hempty b hb)]

end Group

/-! ## The workloads of a reordered snapshot -/

section Workloads
variable (σ : StdSort) {snapshot : SystemSnapshot} {processes : List ProcessSnapshot}
variable (hd : (snapshot.processes.map (·.pid)).Nodup)

/-- `makeId` reads the pids and nothing else of the processes. -/
theorem makeId_congr {w w' : WorkloadSnapshot} (hk : w.kind = w'.kind)
    (hm : w.modelHint = w'.modelHint)
    (hp : w.processes.map (·.pid) = w'.processes.map (·.pid)) : makeId w = makeId w' := by
  unfold makeId
  rw [hk, hm]
  cases h : w.processes with
  | nil =>
    rw [h, List.map_nil] at hp
    rw [List.map_eq_nil_iff.mp hp.symm]
  | cons first rest =>
    cases h' : w'.processes with
    | nil => simp [h, h'] at hp
    | cons first' rest' =>
      rw [h, h', List.map_cons, List.map_cons, List.cons.injEq] at hp
      simp only [hp.1]

theorem workloadOf_pids_perm {key : Text} : ((workloadOf σ snapshot key).processes.map (·.pid)).Perm
    ((groupMembers snapshot key).map (·.process.pid)) := by
  have h := (workloadOf_processes σ snapshot key).map (·.pid)
  rw [List.map_map] at h
  exact h

include hd

/-- An unambiguous group makes the same workload in every order. -/
theorem summary_reordered (hp : processes.Perm snapshot.processes) {key : Text}
    (hk : key ∈ groupKeys snapshot) (hu : Unambiguous (groupMembers snapshot key)) :
    summary (workloadOf σ (reordered snapshot processes) key) =
      summary (workloadOf σ snapshot key) := by
  have hmembers := groupMembers_reordered hd hp key
  have hne := groupMembers_ne_nil hk
  have hk' : key ∈ groupKeys (reordered snapshot processes) :=
    (groupKeys_reordered hd hp).mem_iff.mpr hk
  obtain ⟨item, hitem⟩ := List.exists_mem_of_ne_nil _ hne
  have hkind : (workloadOf σ (reordered snapshot processes) key).kind =
      (workloadOf σ snapshot key).kind := by
    rw [workloadOf_kind σ snapshot hitem,
      workloadOf_kind σ (reordered snapshot processes) (hmembers.mem_iff.mpr hitem)]
  have hhint : (workloadOf σ (reordered snapshot processes) key).modelHint =
      (workloadOf σ snapshot key).modelHint := by
    rw [workloadOf_modelHint, workloadOf_modelHint]
    exact hu.hint_eq hne hmembers
  have hname : (workloadOf σ (reordered snapshot processes) key).name =
      (workloadOf σ snapshot key).name :=
    hu.name_eq (groupMembers_oneKind snapshot key) hne hmembers
  have hpids : (workloadOf σ (reordered snapshot processes) key).processes.map (·.pid) =
      (workloadOf σ snapshot key).processes.map (·.pid) := by
    have hperm := ((workloadOf_pids_perm σ).trans (hmembers.map (·.process.pid))).trans
      (workloadOf_pids_perm σ).symm
    have hsorted' := List.pairwise_map.mpr (workloadOf_reports σ _ hk').sorted
    have hsorted := List.pairwise_map.mpr (workloadOf_reports σ _ hk).sorted
    exact hperm.eq_of_pairwise (fun _ _ _ _ h h' => le_antisymm h h') hsorted' hsorted
  have hresident : (workloadOf σ (reordered snapshot processes) key).residentBytes =
      (workloadOf σ snapshot key).residentBytes := by
    refine UInt64.toNat_inj.mp ((groupOf_residentBytes _).trans ?_)
    rw [(hmembers.map _).sum_eq]
    exact (groupOf_residentBytes _).symm
  have hvirtual : (workloadOf σ (reordered snapshot processes) key).virtualBytes =
      (workloadOf σ snapshot key).virtualBytes := by
    refine UInt64.toNat_inj.mp ((groupOf_virtualBytes _).trans ?_)
    rw [(hmembers.map _).sum_eq]
    exact (groupOf_virtualBytes _).symm
  have hgpu : (workloadOf σ (reordered snapshot processes) key).gpuActive =
      (workloadOf σ snapshot key).gpuActive := by
    refine (groupOf_gpuActive _).trans (Eq.trans ?_ (groupOf_gpuActive _).symm)
    exact hmembers.any_eq
  have hid : (workloadOf σ (reordered snapshot processes) key).id =
      (workloadOf σ snapshot key).id := makeId_congr hkind hhint hpids
  simp only [summary, hid, hkind, hname, hhint, hpids, hresident, hvirtual, hgpu]

/-- Equal summaries come from equal keys, as the pids tell. -/
theorem summary_of_perm {key : Text}
    (hp : processes.Perm snapshot.processes) (hk : key ∈ groupKeys snapshot)
    (h : ((buildWorkloads σ (reordered snapshot processes)).map summary).Perm
      ((buildWorkloads σ snapshot).map summary)) :
    summary (workloadOf σ (reordered snapshot processes) key) =
      summary (workloadOf σ snapshot key) := by
  have hmembers := groupMembers_reordered hd hp key
  have hk' : key ∈ groupKeys (reordered snapshot processes) :=
    (groupKeys_reordered hd hp).mem_iff.mpr hk
  have hin : summary (workloadOf σ (reordered snapshot processes) key) ∈
      (buildWorkloads σ snapshot).map summary :=
    h.mem_iff.mp (List.mem_map_of_mem
      ((buildWorkloads_perm σ _).mem_iff.mpr (List.mem_map_of_mem hk')))
  obtain ⟨w, hw, hsum⟩ := List.mem_map.mp hin
  obtain ⟨other, -, rfl⟩ := List.mem_map.mp ((buildWorkloads_perm σ snapshot).mem_iff.mp hw)
  obtain ⟨item, hitem⟩ := List.exists_mem_of_ne_nil _ (groupMembers_ne_nil hk)
  have hpid : item.process.pid ∈ (workloadOf σ snapshot other).processes.map (·.pid) := by
    rw [show (workloadOf σ snapshot other).processes.map (·.pid) = _ from
      congrArg Summary.pids hsum]
    exact (mem_workloadOf_pids σ).mpr ⟨item, hmembers.mem_iff.mpr hitem, rfl⟩
  obtain ⟨item', hitem', he⟩ := (mem_workloadOf_pids σ).mp hpid
  obtain ⟨hd1, hk1⟩ := mem_groupMembers.mp hitem
  obtain ⟨hd2, hk2⟩ := mem_groupMembers.mp hitem'
  have hsame := detected_eq_of_pid hd hd1 hd2 he.symm
  have hkey : key = other := by rw [← hk1, ← hk2, hsame]
  rw [hkey]
  exact (hkey ▸ hsum).symm

/-- The workloads are the same in every order exactly when every group is unambiguous. -/
theorem buildWorkloads_order_iff :
    (∀ processes : List ProcessSnapshot, processes.Perm snapshot.processes →
      ((buildWorkloads σ (reordered snapshot processes)).map summary).Perm
        ((buildWorkloads σ snapshot).map summary)) ↔
      ∀ item ∈ detectedProcesses snapshot,
        Unambiguous (groupMembers snapshot (keyOf snapshot item)) := by
  constructor
  · intro hall item hitem
    have hk : keyOf snapshot item ∈ groupKeys snapshot := mem_groupKeys.mpr ⟨item, hitem, rfl⟩
    have hone := groupMembers_oneKind snapshot (keyOf snapshot item)
    have hsame : ∀ others, others.Perm (groupMembers snapshot (keyOf snapshot item)) →
        (groupOf others).workload.name =
            (groupOf (groupMembers snapshot (keyOf snapshot item))).workload.name ∧
          (groupOf others).workload.modelHint =
            (groupOf (groupMembers snapshot (keyOf snapshot item))).workload.modelHint := by
      intro others ho
      obtain ⟨processes, hp, rfl⟩ := exists_reordering hd ho
      have hs := summary_of_perm σ hd hp hk (hall processes hp)
      exact ⟨congrArg Summary.name hs, congrArg Summary.modelHint hs⟩
    refine unambiguous_of_stable hone (fun others ho => (hsame others ho).1) fun others ho => ?_
    rw [← groupOf_modelHint hone, ← groupOf_modelHint (hone.subset ho.subset)]
    exact (hsame others ho).2
  · intro hall processes hp
    refine ((buildWorkloads_perm σ _).map summary).trans ?_
    refine List.Perm.trans ?_ ((buildWorkloads_perm σ snapshot).map summary).symm
    rw [List.map_map, List.map_map]
    refine ((groupKeys_reordered hd hp).map _).trans (.of_eq (List.map_congr_left fun key hk => ?_))
    obtain ⟨item, hitem, rfl⟩ := mem_groupKeys.mp hk
    exact summary_reordered σ hd hp hk (hall item hitem)

end Workloads

def llamaWorker (pid : ℤ) (model : String) : ProcessSnapshot :=
  { pid, parentPid := 1, name := str "llama-server", command := str "llama-server --model " ++ str model }

/-- Two servers under one parent, each with its own model. -/
def llamaPair : SystemSnapshot :=
  { processes := [llamaServer 1 0, llamaWorker 2 "a.gguf", llamaWorker 3 "b.gguf"] }

/-- The workload of the two servers takes its id from the server listed first. -/
theorem llamaPair_order :
    (llamaPair.processes.map (·.pid)).Nodup ∧
      llamaPair.processes.reverse.Perm llamaPair.processes ∧
      ¬ ((buildWorkloads .insertion (reordered llamaPair llamaPair.processes.reverse)).map summary).Perm
        ((buildWorkloads .insertion llamaPair).map summary) := by
  decide +kernel

theorem buildWorkloads_order_iff_llamaPair :
    (∀ processes : List ProcessSnapshot, processes.Perm llamaPair.processes →
      ((buildWorkloads .insertion (reordered llamaPair processes)).map summary).Perm
        ((buildWorkloads .insertion llamaPair).map summary)) ↔
      ∀ item ∈ detectedProcesses llamaPair,
        Unambiguous (groupMembers llamaPair (keyOf llamaPair item)) :=
  buildWorkloads_order_iff .insertion (by decide)

end Mtop
