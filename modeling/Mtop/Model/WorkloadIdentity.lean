import Mtop.Model.WorkloadRepresentative

/-! The id of a workload: its kind, then the published hint or else the lowest pid. Of the grouping
key the id keeps the kind, but not the rule that formed the group. -/
namespace Mtop
open Cxx
set_option autoImplicit false

/-! ## The id -/

/-- `item` has the lowest pid among `items`. -/
def Lowest (items : List DetectedProcess) (item : DetectedProcess) : Prop :=
  item ∈ items ∧ ∀ other ∈ items, item.process.pid ≤ other.process.pid

section Ids
variable (σ : StdSort) (snapshot : SystemSnapshot)

theorem groupMembers_oneKind (key : Text) : OneKind (groupMembers snapshot key) where
  detects := detectProcess_process snapshot _ fun _ hm => (mem_groupMembers.mp hm).1
  kind _ ha _ hb := mem_groupMembers_kind snapshot ha hb

theorem workloadOf_modelHint (key : Text) :
    (workloadOf σ snapshot key).modelHint = publishedHint (groupMembers snapshot key) :=
  groupOf_modelHint (groupMembers_oneKind snapshot key)

theorem workloadOf_kind {key : Text} {item : DetectedProcess}
    (hm : item ∈ groupMembers snapshot key) :
    (workloadOf σ snapshot key).kind = item.detection.kind :=
  groupOf_kind _ _ (fun _ ho => mem_groupMembers_kind snapshot ho hm) (List.ne_nil_of_mem hm)

/-- The kind, then the published hint or else the lowest pid. -/
theorem workloadOf_id {key : Text} (hk : key ∈ groupKeys snapshot) :
    ∃ low, Lowest (groupMembers snapshot key) low ∧
      (workloadOf σ snapshot key).id = workloadKindName low.detection.kind ++ ':' ::
        if publishedHint (groupMembers snapshot key) ≠ [] then
          publishedHint (groupMembers snapshot key)
        else intText low.process.pid := by
  have hr := workloadOf_reports σ snapshot hk
  have hp := workloadOf_processes σ snapshot key
  obtain ⟨first, rest, hl⟩ := List.exists_cons_of_ne_nil hr.nonempty
  have hfirst : first ∈ (groupMembers snapshot key).map processRef :=
    hp.mem_iff.mp (hl ▸ List.mem_cons_self)
  obtain ⟨low, hlow, rfl⟩ := List.mem_map.mp hfirst
  refine ⟨low, ⟨hlow, fun other ho => ?_⟩, ?_⟩
  · have hsorted := hr.sorted
    rw [hl, List.pairwise_cons] at hsorted
    have hother : processRef other ∈ (workloadOf σ snapshot key).processes :=
      hp.mem_iff.mpr (List.mem_map_of_mem ho)
    rw [hl] at hother
    rcases List.mem_cons.mp hother with he | hrest
    · exact (congrArg WorkloadProcessRef.pid he).ge
    · exact hsorted.1 _ hrest
  · have hid : (workloadOf σ snapshot key).id = makeId (workloadOf σ snapshot key) := rfl
    rw [hid, makeId, workloadOf_kind σ snapshot hlow, workloadOf_modelHint, hl]
    simp [processRef]

/-- Two texts chosen as a hint or else a pid agree by hint, or by a hint that spells the pid. -/
theorem hintOrPid_eq_iff {hint hint' pid pid' : Text} (hne : pid ≠ pid') (hp : pid ≠ [])
    (hp' : pid' ≠ []) :
    (if hint ≠ [] then hint else pid) = (if hint' ≠ [] then hint' else pid') ↔
      (hint ≠ [] ∧ hint = hint') ∨ (hint' = [] ∧ hint = pid') ∨ (hint = [] ∧ hint' = pid) := by
  by_cases h : hint = [] <;> by_cases h' : hint' = []
  · simp [h, h', hne, Ne.symm hp, Ne.symm hp']
  · simp [h, h', eq_comm]
  · simp [h, h']
  · simp [h, h']

/-- Both groups publish one hint. -/
def SharesHint (members others : List DetectedProcess) : Prop :=
  publishedHint members ≠ [] ∧ publishedHint members = publishedHint others

/-- The hint of the first group spells the lowest pid of the second, which has no hint. -/
def HintNamesPid (members others : List DetectedProcess) : Prop :=
  hints others = [] ∧ ∃ low, Lowest others low ∧ publishedHint members = intText low.process.pid

variable {snapshot} (hd : (snapshot.processes.map (·.pid)).Nodup)
include hd

theorem lowest_unique {key key' : Text} {low low' : DetectedProcess}
    (h : Lowest (groupMembers snapshot key) low) (h' : Lowest (groupMembers snapshot key') low')
    (hp : low.process.pid = low'.process.pid) : low = low' :=
  detected_eq_of_pid hd (mem_groupMembers.mp h.1).1 (mem_groupMembers.mp h'.1).1 hp

theorem workloadOf_id_eq_iff {p q : DetectedProcess} (hp : p ∈ detectedProcesses snapshot)
    (hq : q ∈ detectedProcesses snapshot) (hkeys : keyOf snapshot p ≠ keyOf snapshot q) :
    (workloadOf σ snapshot (keyOf snapshot p)).id = (workloadOf σ snapshot (keyOf snapshot q)).id ↔
      p.detection.kind = q.detection.kind ∧
        (SharesHint (groupMembers snapshot (keyOf snapshot p))
            (groupMembers snapshot (keyOf snapshot q)) ∨
          HintNamesPid (groupMembers snapshot (keyOf snapshot p))
            (groupMembers snapshot (keyOf snapshot q)) ∨
          HintNamesPid (groupMembers snapshot (keyOf snapshot q))
            (groupMembers snapshot (keyOf snapshot p))) := by
  have hpm : p ∈ groupMembers snapshot (keyOf snapshot p) := mem_groupMembers.mpr ⟨hp, rfl⟩
  have hqm : q ∈ groupMembers snapshot (keyOf snapshot q) := mem_groupMembers.mpr ⟨hq, rfl⟩
  obtain ⟨lowp, hlowp, hidp⟩ := workloadOf_id σ snapshot (mem_groupKeys.mpr ⟨p, hp, rfl⟩)
  obtain ⟨lowq, hlowq, hidq⟩ := workloadOf_id σ snapshot (mem_groupKeys.mpr ⟨q, hq, rfl⟩)
  have huniq : ∀ low, Lowest (groupMembers snapshot (keyOf snapshot p)) low → low = lowp :=
    fun low h => lowest_unique hd h hlowp (le_antisymm (h.2 _ hlowp.1) (hlowp.2 _ h.1))
  have huniq' : ∀ low, Lowest (groupMembers snapshot (keyOf snapshot q)) low → low = lowq :=
    fun low h => lowest_unique hd h hlowq (le_antisymm (h.2 _ hlowq.1) (hlowq.2 _ h.1))
  have hpids : intText lowp.process.pid ≠ intText lowq.process.pid := fun he => hkeys <| by
    have h := lowest_unique hd hlowp hlowq (intText_injective he)
    rw [← (mem_groupMembers.mp hlowp.1).2, ← (mem_groupMembers.mp hlowq.1).2, h]
  rw [mem_groupMembers_kind snapshot hlowp.1 hpm] at hidp
  rw [mem_groupMembers_kind snapshot hlowq.1 hqm] at hidq
  have hnames : HintNamesPid (groupMembers snapshot (keyOf snapshot p))
      (groupMembers snapshot (keyOf snapshot q)) ↔
        publishedHint (groupMembers snapshot (keyOf snapshot q)) = [] ∧
          publishedHint (groupMembers snapshot (keyOf snapshot p)) = intText lowq.process.pid := by
    rw [HintNamesPid, publishedHint_eq_nil]
    exact and_congr_right' ⟨fun ⟨low, hl, h⟩ => huniq' low hl ▸ h, fun h => ⟨lowq, hlowq, h⟩⟩
  have hnames' : HintNamesPid (groupMembers snapshot (keyOf snapshot q))
      (groupMembers snapshot (keyOf snapshot p)) ↔
        publishedHint (groupMembers snapshot (keyOf snapshot p)) = [] ∧
          publishedHint (groupMembers snapshot (keyOf snapshot q)) = intText lowp.process.pid := by
    rw [HintNamesPid, publishedHint_eq_nil]
    exact and_congr_right' ⟨fun ⟨low, hl, h⟩ => huniq low hl ▸ h, fun h => ⟨lowp, hlowp, h⟩⟩
  rw [hidp, hidq, hnames, hnames', SharesHint,
    ← hintOrPid_eq_iff hpids (intText_ne_nil _) (intText_ne_nil _)]
  exact ⟨kindName_append_inj, fun ⟨hk, ht⟩ => by rw [hk, ht]⟩

/-- The ids of the workloads differ exactly when no two groups of one kind publish the same hint
and no hint spells the lowest pid of a hintless group of its kind. -/
theorem workload_ids_nodup_iff :
    ((buildWorkloads σ snapshot).map (·.id)).Nodup ↔
      ∀ p ∈ detectedProcesses snapshot, ∀ q ∈ detectedProcesses snapshot,
        p.detection.kind = q.detection.kind → keyOf snapshot p ≠ keyOf snapshot q →
          ¬ SharesHint (groupMembers snapshot (keyOf snapshot p))
              (groupMembers snapshot (keyOf snapshot q)) ∧
            ¬ HintNamesPid (groupMembers snapshot (keyOf snapshot p))
              (groupMembers snapshot (keyOf snapshot q)) := by
  rw [((buildWorkloads_perm σ snapshot).map _).nodup_iff, List.map_map,
    List.nodup_map_iff_inj_on (nodup_groupKeys snapshot)]
  constructor
  · intro hinj p hp q hq hkind hkeys
    have hne := mt (hinj _ (mem_groupKeys.mpr ⟨p, hp, rfl⟩) _ (mem_groupKeys.mpr ⟨q, hq, rfl⟩)) hkeys
    have hnot := mt (workloadOf_id_eq_iff σ hd hp hq hkeys).mpr hne
    exact ⟨fun h => hnot ⟨hkind, .inl h⟩, fun h => hnot ⟨hkind, .inr (.inl h)⟩⟩
  · intro hall key hk key' hk' hid
    obtain ⟨p, hp, rfl⟩ := mem_groupKeys.mp hk
    obtain ⟨q, hq, rfl⟩ := mem_groupKeys.mp hk'
    by_contra hkeys
    obtain ⟨hkind, h⟩ := (workloadOf_id_eq_iff σ hd hp hq hkeys).mp hid
    rcases h with h | h | h
    · exact (hall p hp q hq hkind hkeys).1 h
    · exact (hall p hp q hq hkind hkeys).2 h
    · exact (hall q hq p hp hkind.symm (Ne.symm hkeys)).2 h

end Ids

def llamaModel (pid parentPid : ℤ) : ProcessSnapshot :=
  { pid, parentPid, name := str "llama-server", command := str "llama-server --model a.gguf" }

/-- A parent and its child that run the same model. -/
def llamaModelFamily : SystemSnapshot := { processes := [llamaModel 10 1, llamaModel 11 10] }

/-- `llama_cpp:model:a.gguf` and `llama_cpp:parent:10` are both published as `llama_cpp:a.gguf`. -/
theorem llamaModelFamily_ids :
    (llamaModelFamily.processes.map (·.pid)).Nodup ∧
      (buildWorkloads .insertion llamaModelFamily).map (·.id) =
        [str "llama_cpp:a.gguf", str "llama_cpp:a.gguf"] ∧
      ¬ ((buildWorkloads .insertion llamaModelFamily).map (·.id)).Nodup := by
  decide +kernel

theorem workload_ids_nodup_iff_llamaModelFamily :
    ((buildWorkloads .insertion llamaModelFamily).map (·.id)).Nodup ↔
      ∀ p ∈ detectedProcesses llamaModelFamily, ∀ q ∈ detectedProcesses llamaModelFamily,
        p.detection.kind = q.detection.kind →
          keyOf llamaModelFamily p ≠ keyOf llamaModelFamily q →
            ¬ SharesHint (groupMembers llamaModelFamily (keyOf llamaModelFamily p))
                (groupMembers llamaModelFamily (keyOf llamaModelFamily q)) ∧
              ¬ HintNamesPid (groupMembers llamaModelFamily (keyOf llamaModelFamily p))
                (groupMembers llamaModelFamily (keyOf llamaModelFamily q)) :=
  workload_ids_nodup_iff .insertion (by decide)

end Mtop
