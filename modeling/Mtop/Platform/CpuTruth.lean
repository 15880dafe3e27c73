import Mtop.Platform.CpuSampler
import Mtop.Library.DoubleMean
import Mathlib.Tactic.Zify

/-! What the published utilisation of cores and clusters says, over whole runs of the sampler: the
share of busy ticks between the two latest readings, also when a counter has wrapped in between. -/
namespace Mtop
open Cxx Cxx.Double
set_option autoImplicit false

/-! ## Counters that wrap -/

/-- The ticks of one processor as they really accumulate. -/
structure CpuTimes where
  user : ℕ
  system : ℕ
  idle : ℕ
  nice : ℕ

/-- What the kernel reports of them. -/
def CpuTimes.ticks (times : CpuTimes) : CpuTicks where
  user := UInt32.ofNat times.user
  system := UInt32.ofNat times.system
  idle := UInt32.ofNat times.idle
  nice := UInt32.ofNat times.nice

/-- A counter has moved on by less than one lap. -/
def WithinLap (before after : ℕ) : Prop := before ≤ after ∧ after < before + 2 ^ 32

instance (before after : ℕ) : Decidable (WithinLap before after) :=
  inferInstanceAs (Decidable (_ ∧ _))

structure Advanced (before after : CpuTimes) : Prop where
  user : WithinLap before.user after.user
  system : WithinLap before.system after.system
  idle : WithinLap before.idle after.idle
  nice : WithinLap before.nice after.nice

def CpuTimes.busySince (before after : CpuTimes) : ℕ :=
  (after.user - before.user) + (after.system - before.system) + (after.nice - before.nice)

def CpuTimes.totalSince (before after : CpuTimes) : ℕ :=
  before.busySince after + (after.idle - before.idle)

/-- The busy share in percent; 0 where no tick has passed. -/
def CpuTimes.busyPercent (before after : CpuTimes) : ℚ≥0 :=
  (before.busySince after * 100 : ℕ) / (before.totalSince after : ℕ)

/-- The difference in 32 bits is the true one. -/
theorem WithinLap.toNat_sub {before after : ℕ} (h : WithinLap before after) :
    (UInt32.ofNat after - UInt32.ofNat before).toUInt64.toNat = after - before := by
  obtain ⟨hle, hlt⟩ := h
  rw [UInt32.toNat_toUInt64, UInt32.toNat_sub, UInt32.toNat_ofNat', UInt32.toNat_ofNat']
  omega

section Advanced
variable {before after : CpuTimes} (h : Advanced before after)
include h

theorem Advanced.busySince_lt : before.busySince after < 3 * 2 ^ 32 := by
  have := h.user.2
  have := h.system.2
  have := h.nice.2
  unfold CpuTimes.busySince
  omega

theorem Advanced.totalSince_lt : before.totalSince after < 4 * 2 ^ 32 := by
  have := h.busySince_lt
  have := h.idle.2
  unfold CpuTimes.totalSince
  omega

theorem Advanced.busyDelta_eq : (busyDelta after.ticks before.ticks).toNat = before.busySince after := by
  have hlt := h.busySince_lt
  unfold busyDelta CpuTimes.ticks CpuTimes.busySince at *
  rw [UInt64.toNat_add, UInt64.toNat_add, h.user.toNat_sub, h.system.toNat_sub, h.nice.toNat_sub]
  omega

theorem Advanced.totalDelta_eq :
    (totalDelta after.ticks before.ticks).toNat = before.totalSince after := by
  have hbusy := h.busyDelta_eq
  have hlt := h.totalSince_lt
  unfold totalDelta CpuTimes.totalSince at *
  rw [UInt64.toNat_add, hbusy]
  unfold CpuTimes.ticks
  rw [h.idle.toNat_sub]
  omega

end Advanced

/-! ## One core -/

theorem delta_bounds (current previous : CpuTicks) :
    (busyDelta current previous).toNat ≤ (totalDelta current previous).toNat ∧
      (totalDelta current previous).toNat < 2 ^ 34 := by
  have huser := (current.user - previous.user).toNat_lt
  have hsystem := (current.system - previous.system).toNat_lt
  have hnice := (current.nice - previous.nice).toNat_lt
  have hidle := (current.idle - previous.idle).toNat_lt
  unfold totalDelta busyDelta
  simp only [UInt64.toNat_add, UInt32.toNat_toUInt64]
  omega

/-- The percentage is the double nearest to the share of the differences. -/
theorem corePercent_eq (current previous : CpuTicks) :
    corePercent current (some previous) =
      .finite false (nearest (((busyDelta current previous).toNat * 100 : ℕ) /
        (totalDelta current previous).toNat)) := by
  obtain ⟨hle, hlt⟩ := delta_bounds current previous
  unfold corePercent
  dsimp only
  split
  · rename_i hpos
    have hpos' : 0 < (totalDelta current previous).toNat := UInt64.lt_iff_toNat_lt.mp hpos
    have hscaled : (busyDelta current previous).toNat * 100 ≤ 2 ^ 53 := by omega
    rw [rounded_ofNat (by omega), rounded_ofNat (by omega)]
    rw [show (100 : Double) = ofNat 100 from rfl, mulRounded_natCast hscaled]
    refine divRounded_of_le (by exact_mod_cast hpos'.ne') ?_
    refine (div_le_self (zero_le) (by exact_mod_cast hpos')).trans (le_two_pow_70 hscaled)
  · rename_i hzero
    have hzero' : (totalDelta current previous).toNat = 0 := by
      have : ¬ (0 : UInt64).toNat < (totalDelta current previous).toNat :=
        fun hpos => hzero (UInt64.lt_iff_toNat_lt.mpr hpos)
      exact Nat.eq_zero_of_not_pos this
    rw [hzero', Nat.cast_zero, div_zero, nearest_zero]
    rfl

/-- A percentage as it is published: a number from 0 to 100. -/
def IsPercent (d : Double) : Prop := ∃ q : ℚ≥0, d = .finite false q ∧ q ≤ (100 : ℕ)

theorem isPercent_zero : IsPercent 0 := ⟨0, rfl, zero_le⟩

theorem corePercent_isPercent (current : CpuTicks) (previous : Option CpuTicks) :
    IsPercent (corePercent current previous) := by
  cases previous with
  | none => exact isPercent_zero
  | some previous =>
    refine ⟨_, corePercent_eq current previous, ?_⟩
    rw [← nearest_natCast (by norm_num : 100 ≤ 2 ^ 53)]
    refine nearest_mono (div_le_of_le_mul₀ (zero_le) (zero_le) ?_)
    have hle := (delta_bounds current previous).1
    rw [← Nat.cast_mul, mul_comm]
    exact_mod_cast Nat.mul_le_mul_left 100 hle

/-- Where the counters have moved on by less than a lap, the percentage is the true one. -/
theorem corePercent_true {before after : CpuTimes} (h : Advanced before after) :
    corePercent after.ticks (some before.ticks) =
      .finite false (nearest (before.busyPercent after)) := by
  rw [corePercent_eq, h.busyDelta_eq, h.totalDelta_eq]
  rfl

/-! ## What a call leaves alone -/

/-- The cores and clusters of a sampler. -/
def Sampler.cpu (s : Sampler) : List CpuCoreSnapshot × List CpuClusterSnapshot :=
  (s.snapshot.cpuCores, s.snapshot.cpuClusters)

section Parts
variable (σ : StdSort) (shared : RootMetrics) (input : SampleInput) (s : Sampler)

theorem stampSample_cpu : (stampSample input s).cpu = s.cpu := rfl

theorem sampleMemory_cpu : (sampleMemory input s).cpu = s.cpu := by
  unfold sampleMemory publishSwap
  dsimp only
  repeat' split
  all_goals rfl

theorem sampleSystemIo_cpu : (sampleSystemIo input s).cpu = s.cpu := by
  unfold sampleSystemIo sampleNetwork sampleDisk samplePaging
  dsimp only
  repeat' split
  all_goals rfl

theorem sampleRootMetrics_cpu : (sampleRootMetrics shared input s).cpu = s.cpu := by
  unfold sampleRootMetrics applyRootMetrics
  dsimp only
  repeat' split
  all_goals rfl

theorem sampleGpu_cpu (probe : AppleGpuProbeResult) : (sampleGpu probe s).cpu = s.cpu := by
  unfold sampleGpu
  dsimp only
  split <;> rfl

theorem sampleProcesses_cpu : (sampleProcesses σ input s).cpu = s.cpu := by
  unfold sampleProcesses
  dsimp only
  split <;> rfl

end Parts

/-! ## Whole runs -/

section Runs
variable (σ : StdSort)

theorem sampleHost_unread (shared : RootMetrics) {host : HostInput} (h : host.cpuLoad = none)
    (s : DarwinSampler) :
    (sampleHost σ shared host s).sampler.cpu = s.sampler.cpu ∧
      (sampleHost σ shared host s).previousCpuInfo = s.previousCpuInfo := by
  unfold sampleHost sampleCpu
  rw [h]
  refine ⟨?_, rfl⟩
  dsimp only
  rw [sampleProcesses_cpu, sampleGpu_cpu, sampleRootMetrics_cpu, sampleSystemIo_cpu,
    sampleMemory_cpu, stampSample_cpu]

theorem sampleHost_read (shared : RootMetrics) {host : HostInput} {current : List CpuTicks}
    (h : host.cpuLoad = some current) (s : DarwinSampler) :
    (sampleHost σ shared host s).sampler.cpu =
        (sampleCores s.previousCpuInfo current s.sampler.snapshot.cpuCores,
          refreshCpuClusters (perfLevels σ host.perfLevels)
            (sampleCores s.previousCpuInfo current s.sampler.snapshot.cpuCores)
            s.sampler.snapshot.cpuClusters) ∧
      (sampleHost σ shared host s).previousCpuInfo = some current := by
  let input := { host.input with gpuActivePids := host.gpu.activePids }
  have hbefore : (sampleSystemIo input (sampleMemory input (stampSample input s.sampler))).cpu =
      s.sampler.cpu := by rw [sampleSystemIo_cpu, sampleMemory_cpu, stampSample_cpu]
  obtain ⟨hcores, hclusters⟩ := Prod.mk.inj hbefore
  unfold sampleHost sampleCpu
  rw [h]
  refine ⟨?_, rfl⟩
  dsimp only
  rw [sampleProcesses_cpu, sampleGpu_cpu, sampleRootMetrics_cpu]
  unfold Sampler.cpu
  dsimp only
  rw [hcores, hclusters]

/-- The successful readings of a run, the latest first. -/
def cpuLoads (samples : List (RootMetrics × HostInput)) : List (List CpuTicks) :=
  (samples.filterMap fun sample => sample.2.cpuLoad).reverse

theorem cpuLoads_append (samples : List (RootMetrics × HostInput)) (sample : RootMetrics × HostInput) :
    cpuLoads (samples ++ [sample]) = sample.2.cpuLoad.toList ++ cpuLoads samples := by
  unfold cpuLoads
  rw [List.filterMap_append, List.reverse_append]
  cases h : sample.2.cpuLoad <;> simp [h]

/-- The cores as the readings leave them. -/
def coresAfter (cores : List CpuCoreSnapshot) : List (List CpuTicks) → List CpuCoreSnapshot
  | [] => cores
  | current :: earlier => sampleCores earlier.head? current (coresAfter cores earlier)

/-- Failed readings leave no trace. -/
theorem runHost_cores (rootMode : Bool) (levels : List PerfLevelInfo)
    (samples : List (RootMetrics × HostInput)) :
    (runHost σ samples (newDarwinSampler σ rootMode levels)).sampler.snapshot.cpuCores =
        coresAfter (buildCoreTopology (perfLevels σ levels)) (cpuLoads samples) ∧
      (runHost σ samples (newDarwinSampler σ rootMode levels)).previousCpuInfo =
        (cpuLoads samples).head? := by
  induction samples using List.reverseRecOn with
  | nil => exact ⟨rfl, rfl⟩
  | append_singleton samples sample ih =>
    obtain ⟨hcores, hprevious⟩ := ih
    rw [runHost_append, cpuLoads_append]
    cases hload : sample.2.cpuLoad with
    | none =>
      obtain ⟨hcpu, hsame⟩ := sampleHost_unread σ sample.1 hload
        (runHost σ samples (newDarwinSampler σ rootMode levels))
      exact ⟨(congrArg Prod.fst hcpu).trans hcores, hsame.trans hprevious⟩
    | some current =>
      obtain ⟨hcpu, hnew⟩ := sampleHost_read σ sample.1 hload
        (runHost σ samples (newDarwinSampler σ rootMode levels))
      refine ⟨(congrArg Prod.fst hcpu).trans ?_, hnew⟩
      rw [hcores, hprevious]
      rfl

/-- A core without its utilisation. -/
def CpuCoreSnapshot.identity (core : CpuCoreSnapshot) : CpuCoreSnapshot :=
  { core with utilizationPercent := 0 }

theorem sampleCores_identity (previous : Option (List CpuTicks)) (current : List CpuTicks)
    (cores : List CpuCoreSnapshot) :
    (sampleCores previous current cores).map CpuCoreSnapshot.identity =
      cores.map CpuCoreSnapshot.identity := by
  refine List.ext_getElem? fun i => ?_
  unfold sampleCores
  simp only [List.getElem?_map, List.getElem?_mapIdx, Option.map_map]
  congr 1
  funext core
  dsimp only [Function.comp_apply]
  split <;> rfl

theorem coresAfter_identity (cores : List CpuCoreSnapshot) (loads : List (List CpuTicks)) :
    (coresAfter cores loads).map CpuCoreSnapshot.identity = cores.map CpuCoreSnapshot.identity := by
  induction loads with
  | nil => rfl
  | cons current earlier ih => exact (sampleCores_identity _ _ _).trans ih

/-- However the counters wrap and whichever readings fail, after every sample each core shows the
double nearest to its true busy share between the two latest readings, provided that no counter has
made a whole lap between these two. -/
theorem core_shows_busy_share (rootMode : Bool) (levels : List PerfLevelInfo)
    (samples : List (RootMetrics × HostInput)) {before after : List CpuTimes}
    {earlier : List (List CpuTicks)}
    (hloads : cpuLoads samples =
      after.map CpuTimes.ticks :: before.map CpuTimes.ticks :: earlier)
    (hlap : List.Forall₂ Advanced before after) {i : ℕ} {times times' : CpuTimes}
    {core : CpuCoreSnapshot} (hbefore : before[i]? = some times) (hafter : after[i]? = some times')
    (hcore : (buildCoreTopology (perfLevels σ levels))[i]? = some core) :
    (runHost σ samples (newDarwinSampler σ rootMode levels)).sampler.snapshot.cpuCores[i]? =
      some { core with utilizationPercent := .finite false (nearest (times.busyPercent times')) } := by
  rw [(runHost_cores σ rootMode levels samples).1, hloads]
  have hadvanced : Advanced times times' := by
    obtain ⟨hi, rfl⟩ := List.getElem?_eq_some_iff.mp hbefore
    obtain ⟨hi', rfl⟩ := List.getElem?_eq_some_iff.mp hafter
    exact hlap.get hi hi'
  have hidentity := congrArg (·[i]?) (coresAfter_identity (buildCoreTopology (perfLevels σ levels))
    (before.map CpuTimes.ticks :: earlier))
  simp only [List.getElem?_map, hcore, Option.map_some] at hidentity
  obtain ⟨old, hold, hsame⟩ := Option.map_eq_some_iff.mp hidentity
  unfold coresAfter sampleCores
  rw [List.getElem?_mapIdx, hold]
  simp only [List.head?_cons, Option.filter_some, List.length_map, hlap.length_eq, decide_true,
    if_true, Option.bind_some, List.getElem?_map, hbefore, hafter, Option.map_some]
  rw [corePercent_true hadvanced]
  exact congrArg (fun c : CpuCoreSnapshot => some
    { c with utilizationPercent := .finite false (nearest (times.busyPercent times')) }) hsame

/-- Four ticks after a wrap, three of them busy, with a failed reading in between. -/
def wrappedRun : List (RootMetrics × HostInput) :=
  [({}, { cpuLoad := some [CpuTimes.ticks ⟨2 ^ 32 - 1, 0, 7, 0⟩] }), ({}, {}),
    ({}, { cpuLoad := some [CpuTimes.ticks ⟨2 ^ 32 + 2, 0, 8, 0⟩] })]

theorem core_shows_busy_share_wrapped :
    ∃ core, (runHost .insertion wrappedRun (newDarwinSampler .insertion false
      [⟨['P'], 1⟩])).sampler.snapshot.cpuCores[0]? = some core ∧
        core.utilizationPercent = .finite false (nearest (CpuTimes.busyPercent
          ⟨2 ^ 32 - 1, 0, 7, 0⟩ ⟨2 ^ 32 + 2, 0, 8, 0⟩)) := by
  have hlap : List.Forall₂ Advanced [⟨2 ^ 32 - 1, 0, 7, 0⟩] [⟨2 ^ 32 + 2, 0, 8, 0⟩] :=
    .cons ⟨by decide, by decide, by decide, by decide⟩ .nil
  exact ⟨_, core_shows_busy_share .insertion false [⟨['P'], 1⟩] wrappedRun rfl hlap rfl rfl rfl, rfl⟩

end Runs

/-! ## Clusters -/

/-- The utilisation of a core as a number. -/
def CpuCoreSnapshot.share (core : CpuCoreSnapshot) : ℚ≥0 :=
  match core.utilizationPercent with
  | .finite _ q => q
  | _ => 0

/-- What a cluster says about its cores: their number, and their mean up to rounding; no frequency and
no power, which no `powermetrics` output fills in. -/
structure Summarises (cores : List CpuCoreSnapshot) (level : PerfLevelInfo)
    (cluster : CpuClusterSnapshot) : Prop where
  name : cluster.name = level.name
  label : cluster.label = clusterLabel level.name
  count : cluster.coreCount = (coresOf level.name cores).length
  percent : IsPercent cluster.utilizationPercent
  mean : |cluster.utilizationPercent.value -
      ((coresOf level.name cores).map CpuCoreSnapshot.share).sum / (coresOf level.name cores).length| ≤
    100 * ((coresOf level.name cores).length + 1) / 2 ^ 53
  unmeasured : cluster.frequencyAvailable = false ∧ cluster.powerAvailable = false

theorem IsPercent.eq_share {core : CpuCoreSnapshot} (h : IsPercent core.utilizationPercent) :
    core.utilizationPercent = .finite false core.share ∧ core.share ≤ (100 : ℕ) := by
  obtain ⟨q, hq, hle⟩ := h
  have hshare : core.share = q := by
    unfold CpuCoreSnapshot.share
    rw [hq]
  rw [hshare]
  exact ⟨hq, hle⟩

/-- The total is a running sum of shares. -/
theorem totalUtil_eq {cores : List CpuCoreSnapshot}
    (h : ∀ core ∈ cores, IsPercent core.utilizationPercent) (hcount : 100 * cores.length ≤ 2 ^ 53) :
    cores.foldl (fun total core => addRounded total core.utilizationPercent) 0 =
      .finite false (sumNearest (cores.map CpuCoreSnapshot.share)) := by
  induction cores using List.reverseRecOn with
  | nil => rfl
  | append_singleton cores core ih =>
    rw [List.length_append, List.length_singleton] at hcount
    have hfront : ∀ c ∈ cores, IsPercent c.utilizationPercent :=
      fun c hc => h c (List.mem_append_left _ hc)
    obtain ⟨hlast, hle⟩ := (h core (List.mem_append_right _ (List.mem_singleton_self core))).eq_share
    have hsum : sumNearest (cores.map CpuCoreSnapshot.share) ≤
        (100 * (cores.map CpuCoreSnapshot.share).length : ℕ) := by
      refine sumNearest_le (fun x hx => ?_) (by rw [List.length_map]; omega)
      obtain ⟨c, hc, rfl⟩ := List.mem_map.mp hx
      exact (hfront c hc).eq_share.2
    have hbelow : sumNearest (cores.map CpuCoreSnapshot.share) + core.share ≤ 2 ^ 70 := by
      refine (add_le_add hsum hle).trans ?_
      rw [List.length_map, ← Nat.cast_add]
      exact le_two_pow_70 (by omega)
    rw [List.foldl_append, List.foldl_cons, List.foldl_nil, ih hfront (by omega), hlast,
      addRounded_of_le hbelow, List.map_append, List.map_singleton, sumNearest_append_singleton]

theorem refreshCpuCluster_summarises {cores : List CpuCoreSnapshot} {level : PerfLevelInfo}
    {cluster : CpuClusterSnapshot} (h : ∀ core ∈ cores, IsPercent core.utilizationPercent)
    (hcount : 100 * cores.length ≤ 2 ^ 53) (hname : cluster.name = level.name)
    (hlabel : cluster.label = clusterLabel level.name) :
    Summarises cores level (refreshCpuCluster cores cluster) := by
  have hmembers : ∀ core ∈ coresOf level.name cores, IsPercent core.utilizationPercent :=
    fun core hcore => h core (List.mem_of_mem_filter hcore)
  have hlength : 100 * (coresOf level.name cores).length ≤ 2 ^ 53 :=
    (Nat.mul_le_mul_left 100 (List.length_filter_le _ _)).trans hcount
  have hshares : ∀ x ∈ (coresOf level.name cores).map CpuCoreSnapshot.share, x ≤ (100 : ℕ) := by
    intro x hx
    obtain ⟨core, hcore, rfl⟩ := List.mem_map.mp hx
    exact (hmembers core hcore).eq_share.2
  have hutil : (refreshCpuCluster cores cluster).utilizationPercent =
      .finite false (nearest (sumNearest ((coresOf level.name cores).map CpuCoreSnapshot.share) /
        ((coresOf level.name cores).map CpuCoreSnapshot.share).length)) := by
    unfold refreshCpuCluster
    dsimp only
    rw [hname, totalUtil_eq hmembers hlength, List.length_map]
    split
    · rename_i hpos
      have hne : ((coresOf level.name cores).length : ℚ≥0) ≠ 0 := by exact_mod_cast hpos.ne'
      rw [rounded_ofNat (by omega), divRounded_of_le hne]
      refine (div_le_self zero_le (by exact_mod_cast hpos)).trans ((sumNearest_le hshares ?_).trans ?_)
      · rw [List.length_map]
        exact hlength
      · rw [List.length_map]
        exact le_two_pow_70 hlength
    · rename_i hnone
      have hempty : coresOf level.name cores = [] :=
        List.eq_nil_of_length_eq_zero (Nat.eq_zero_of_not_pos hnone)
      rw [hempty]
      show (0 : Double) = .finite false (nearest (0 / ((0 : ℕ) : ℚ≥0)))
      rw [zero_div, nearest_zero]
      rfl
  have hvalue : (refreshCpuCluster cores cluster).utilizationPercent.value =
      ((nearest (sumNearest ((coresOf level.name cores).map CpuCoreSnapshot.share) /
        ((coresOf level.name cores).map CpuCoreSnapshot.share).length) : ℚ≥0) : ℚ) := by
    rw [hutil]
    rfl
  refine ⟨hname, hlabel, ?_, ?_, ?_, rfl, rfl⟩
  · show ((coresOf cluster.name cores).length : ℤ) = _
    rw [hname]
  · by_cases hempty : (coresOf level.name cores).map CpuCoreSnapshot.share = []
    · rw [hutil, hempty]
      refine ⟨_, rfl, ?_⟩
      rw [show sumNearest [] = 0 from rfl, zero_div, nearest_zero]
      exact zero_le
    · exact ⟨_, hutil, mean_le hempty hshares (by rw [List.length_map]; exact hlength) (by norm_num)⟩
  · rw [hvalue, List.length_map]
    by_cases hempty : (coresOf level.name cores).map CpuCoreSnapshot.share = []
    · rw [hempty, show sumNearest [] = 0 from rfl, zero_div, nearest_zero]
      simp only [NNRat.cast_zero, List.sum_nil, zero_div, sub_zero, abs_zero]
      positivity
    · have hnear := mean_near hempty (by norm_num) hshares (by rw [List.length_map]; exact hlength)
      rw [List.length_map] at hnear
      exact_mod_cast hnear

/-! ## Counting cores -/

theorem coresOf_length (name : Text) (cores : List CpuCoreSnapshot) :
    (coresOf name cores).length = (cores.map CpuCoreSnapshot.clusterType).count name := by
  unfold coresOf
  rw [List.count, List.countP_map, List.countP_eq_length_filter]
  congr 1
  refine List.filter_congr fun core _ => ?_
  rw [Function.comp_apply, beq_eq_decide]

theorem levelCores_types (globalCpu : ℕ) (level : PerfLevelInfo) :
    (levelCores globalCpu level).map CpuCoreSnapshot.clusterType =
      List.replicate level.logicalcpu.toNat level.name := by
  unfold levelCores
  rw [List.map_map]
  exact List.map_const'.trans (by rw [List.length_range])

/-- A name that no level has is that of no core. -/
theorem coresFrom_count_of_not_mem {levels : List PerfLevelInfo} {name : Text}
    (h : name ∉ levels.map (·.name)) (globalCpu : ℕ) :
    ((coresFrom globalCpu levels).map CpuCoreSnapshot.clusterType).count name = 0 := by
  induction levels generalizing globalCpu with
  | nil => rfl
  | cons level levels ih =>
    obtain ⟨hne, hrest⟩ := not_or.mp fun heq => h (List.mem_cons.mpr heq)
    rw [coresFrom, List.map_append, List.count_append, levelCores_types, ih hrest, add_zero,
      List.count_replicate, if_neg]
    exact fun heq => hne (beq_iff_eq.mp heq).symm

/-- The cores of a level are as many as the level announces. -/
theorem coresFrom_count {levels : List PerfLevelInfo} (hnames : (levels.map (·.name)).Nodup)
    (globalCpu : ℕ) {level : PerfLevelInfo} (hlevel : level ∈ levels) :
    ((coresFrom globalCpu levels).map CpuCoreSnapshot.clusterType).count level.name =
      level.logicalcpu.toNat := by
  induction levels generalizing globalCpu with
  | nil => exact absurd hlevel List.not_mem_nil
  | cons first levels ih =>
    obtain ⟨hfirst, hrest⟩ := List.nodup_cons.mp hnames
    rw [coresFrom, List.map_append, List.count_append, levelCores_types, List.count_replicate]
    rcases List.mem_cons.mp hlevel with rfl | hlevel
    · rw [if_pos (beq_self_eq_true _), coresFrom_count_of_not_mem hfirst, add_zero]
    · have hne : first.name ≠ level.name := by
        intro heq
        refine hfirst ?_
        dsimp only
        rw [heq]
        exact List.mem_map_of_mem hlevel
      rw [if_neg fun heq => hne (beq_iff_eq.mp heq), ih hrest _ hlevel, zero_add]

theorem coresFrom_length (globalCpu : ℕ) (levels : List PerfLevelInfo) :
    (coresFrom globalCpu levels).length = (levels.map (·.logicalcpu.toNat)).sum := by
  induction levels generalizing globalCpu with
  | nil => rfl
  | cons level levels ih =>
    rw [coresFrom, List.length_append, ih, levelCores, List.length_map, List.length_range,
      List.map_cons, List.sum_cons]

/-! ## Clusters over whole runs -/

section Runs
variable (σ : StdSort)

/-- What holds of the cores and clusters between samples. -/
structure CpuOk (levels : List PerfLevelInfo) (s : Sampler) : Prop where
  cores : ∀ core ∈ s.snapshot.cpuCores, IsPercent core.utilizationPercent
  clusters : List.Forall₂ (Summarises s.snapshot.cpuCores) levels s.snapshot.cpuClusters

theorem CpuOk.congr {levels : List PerfLevelInfo} {s s' : Sampler} (h : CpuOk levels s)
    (heq : s'.cpu = s.cpu) : CpuOk levels s' := by
  obtain ⟨hcores, hclusters⟩ := Prod.mk.inj heq
  refine ⟨?_, ?_⟩
  · rw [hcores]
    exact h.cores
  · rw [hcores, hclusters]
    exact h.clusters

theorem sampleCores_isPercent {cores : List CpuCoreSnapshot}
    (h : ∀ core ∈ cores, IsPercent core.utilizationPercent) (previous : Option (List CpuTicks))
    (current : List CpuTicks) :
    ∀ core ∈ sampleCores previous current cores, IsPercent core.utilizationPercent := by
  intro core hcore
  obtain ⟨i, hi, rfl⟩ := List.mem_mapIdx.mp hcore
  split
  · exact corePercent_isPercent _ _
  · exact h _ (List.getElem_mem hi)

/-- Before the first reading all cores are idle. -/
theorem newDarwinSampler_ok (rootMode : Bool) (levels : List PerfLevelInfo) :
    CpuOk (perfLevels σ levels) (newDarwinSampler σ rootMode levels).sampler := by
  have hidle : ∀ core ∈ buildCoreTopology (perfLevels σ levels), core.utilizationPercent = 0 := by
    unfold buildCoreTopology
    generalize perfLevels σ levels = sorted
    generalize 0 = globalCpu
    induction sorted generalizing globalCpu with
    | nil => exact fun _ h => absurd h List.not_mem_nil
    | cons level sorted ih =>
      intro core hcore
      rcases List.mem_append.mp hcore with hcore | hcore
      · obtain ⟨index, -, rfl⟩ := List.mem_map.mp hcore
        rfl
      · exact ih _ core hcore
  refine ⟨fun core hcore => hidle core hcore ▸ isPercent_zero, ?_⟩
  refine List.forall₂_map_right_iff.mpr (List.forall₂_same.mpr fun level _ => ?_)
  have hshares : ((coresOf level.name (buildCoreTopology (perfLevels σ levels))).map
      CpuCoreSnapshot.share).sum = 0 := by
    refine List.sum_eq_zero fun x hx => ?_
    obtain ⟨core, hcore, rfl⟩ := List.mem_map.mp hx
    unfold CpuCoreSnapshot.share
    rw [hidle core (List.mem_of_mem_filter hcore)]
    rfl
  refine ⟨rfl, rfl, rfl, isPercent_zero, ?_, rfl, rfl⟩
  show |(0 : Double).value -
    ((((coresOf level.name (buildCoreTopology (perfLevels σ levels))).map
      CpuCoreSnapshot.share).sum : ℚ≥0) : ℚ) / _| ≤ _
  rw [hshares, show (0 : Double).value = 0 from rfl, NNRat.cast_zero, zero_div, sub_zero, abs_zero]
  positivity

theorem sampleHost_ok {levels : List PerfLevelInfo} {cores : ℕ} (hlevels : levels ≠ [])
    (hcount : 100 * cores ≤ 2 ^ 53) (shared : RootMetrics) (host : HostInput) {s : DarwinSampler}
    (hlength : s.sampler.snapshot.cpuCores.length = cores) (h : CpuOk levels s.sampler) :
    CpuOk levels (sampleHost σ shared host s).sampler ∧
      (sampleHost σ shared host s).sampler.snapshot.cpuCores.length = cores := by
  cases hload : host.cpuLoad with
  | none =>
    have hsame := (sampleHost_unread σ shared hload s).1
    exact ⟨h.congr hsame, (congrArg (fun cpu => cpu.1.length) hsame).trans hlength⟩
  | some current =>
    have hread := (sampleHost_read σ shared hload s).1
    obtain ⟨hcores, hclusters⟩ := Prod.mk.inj hread
    have hsampled : (sampleCores s.previousCpuInfo current s.sampler.snapshot.cpuCores).length =
        cores := by
      unfold sampleCores
      rw [List.length_mapIdx, hlength]
    have hpercent := sampleCores_isPercent h.cores s.previousCpuInfo current
    have hne : s.sampler.snapshot.cpuClusters ≠ [] := fun hnil =>
      hlevels (List.eq_nil_of_length_eq_zero (h.clusters.length_eq.trans (by rw [hnil]; rfl)))
    refine ⟨⟨?_, ?_⟩, ?_⟩
    · rw [hcores]
      exact hpercent
    · rw [hcores, hclusters]
      unfold refreshCpuClusters
      dsimp only
      rw [if_neg hne]
      refine List.forall₂_map_right_iff.mpr (h.clusters.imp fun level cluster hcluster => ?_)
      exact refreshCpuCluster_summarises hpercent (by rw [hsampled]; exact hcount) hcluster.name
        hcluster.label
    · rw [hcores]
      exact hsampled

theorem perfLevels_perm (levels : List PerfLevelInfo) : (perfLevels σ levels).Perm levels :=
  σ.perm _ _

theorem buildCoreTopology_length (levels : List PerfLevelInfo) :
    (buildCoreTopology (perfLevels σ levels)).length = (levels.map (·.logicalcpu.toNat)).sum :=
  (coresFrom_length 0 _).trans (((perfLevels_perm σ levels).map _).sum_eq)

theorem runHost_ok (rootMode : Bool) {levels : List PerfLevelInfo} (hlevels : levels ≠ [])
    (hcount : 100 * (levels.map (·.logicalcpu.toNat)).sum ≤ 2 ^ 53)
    (samples : List (RootMetrics × HostInput)) :
    CpuOk (perfLevels σ levels)
        (runHost σ samples (newDarwinSampler σ rootMode levels)).sampler ∧
      (runHost σ samples (newDarwinSampler σ rootMode levels)).sampler.snapshot.cpuCores.length =
        (levels.map (·.logicalcpu.toNat)).sum := by
  have hsorted : perfLevels σ levels ≠ [] := fun hnil =>
    hlevels (hnil ▸ perfLevels_perm σ levels).nil_eq.symm
  induction samples using List.reverseRecOn with
  | nil => exact ⟨newDarwinSampler_ok σ rootMode levels, buildCoreTopology_length σ levels⟩
  | append_singleton samples sample ih =>
    rw [runHost_append]
    exact sampleHost_ok σ hsorted hcount sample.1 sample.2 ih.2 ih.1

/-- Where the system announces at least one level, after every sample of every run the cores are numbered
and labelled level by level, their utilisations are percentages, and the clusters divide them up: one
cluster for each level, with the number of cores that the level announces and with their mean. -/
theorem clusters_summarise (rootMode : Bool) {levels : List PerfLevelInfo} (hlevels : levels ≠ [])
    (hnames : (levels.map (·.name)).Nodup)
    (hcount : 100 * (levels.map (·.logicalcpu.toNat)).sum ≤ 2 ^ 53)
    (samples : List (RootMetrics × HostInput)) {snapshot : SystemSnapshot}
    (hrun : (runHost σ samples (newDarwinSampler σ rootMode levels)).sampler.snapshot = snapshot) :
    snapshot.cpuCores.map CpuCoreSnapshot.identity =
        (buildCoreTopology (perfLevels σ levels)).map CpuCoreSnapshot.identity ∧
      (∀ core ∈ snapshot.cpuCores, IsPercent core.utilizationPercent) ∧
      List.Forall₂ (Summarises snapshot.cpuCores) (perfLevels σ levels) snapshot.cpuClusters ∧
      (∀ level ∈ perfLevels σ levels,
        (coresOf level.name snapshot.cpuCores).length = level.logicalcpu.toNat) ∧
      snapshot.cpuCores.length = (levels.map (·.logicalcpu.toNat)).sum := by
  subst hrun
  obtain ⟨hok, hlength⟩ := runHost_ok σ rootMode hlevels hcount samples
  have hidentity := coresAfter_identity (buildCoreTopology (perfLevels σ levels)) (cpuLoads samples)
  rw [← (runHost_cores σ rootMode levels samples).1] at hidentity
  refine ⟨hidentity, hok.cores, hok.clusters, fun level hlevel => ?_, hlength⟩
  have htypes := congrArg (List.map CpuCoreSnapshot.clusterType) hidentity
  rw [List.map_map, List.map_map] at htypes
  rw [coresOf_length]
  refine (congrArg (List.count level.name) htypes).trans ?_
  exact coresFrom_count (((perfLevels_perm σ levels).map _).nodup_iff.mpr hnames) 0 hlevel

/-- Two performance cores and one efficiency core, listed the other way round by the kernel. -/
def threeCores : List PerfLevelInfo := [⟨['E'], 1⟩, ⟨['P'], 2⟩]

theorem clusters_summarise_three :
    (runHost .insertion wrappedRun
        (newDarwinSampler .insertion true threeCores)).sampler.snapshot.cpuCores.length = 3 :=
  (clusters_summarise .insertion true (by decide) (by decide) (by decide) wrappedRun rfl).2.2.2.2

end Runs
end Mtop
