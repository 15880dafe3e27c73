import Mtop.Platform.CpuSampler
import Mtop.Platform.Placeholders
import Mtop.Library.DoubleNear

/-! What the CPU column of a process says, over whole runs of the sampler. A failed `proc_listpids`
moves the clock on and keeps the remembered times, so the time used and the time passed need not
belong to the same interval. -/
namespace Mtop
open Cxx Cxx.Double Std
set_option autoImplicit false

/-! ## One listing -/

/-- The processes that a sample lists; `none` when the listing fails. -/
def SampleInput.listing (input : SampleInput) : Option (List ProcessReading) :=
  input.processes.map fun readings => readings.filter fun reading => 0 < reading.pid

theorem getElem?_insert_of_ne {times : TreeMap ℤ UInt64} {pid pid' : ℤ} (h : pid ≠ pid')
    (time : UInt64) : (times.insert pid time)[pid']? = times[pid']? := by
  rw [TreeMap.getElem?_insert, if_neg fun heq => h (LawfulEqCmp.eq_of_compare heq)]

section Listing
variable (s : Sampler) (gpuActivePids : List ℤ) (seconds : Double)

theorem cpuPercent_congr {times times' : TreeMap ℤ UInt64} {reading : ProcessReading}
    (h : times[reading.pid]? = times'[reading.pid]?) :
    cpuPercent times seconds reading = cpuPercent times' seconds reading := by
  unfold cpuPercent
  rw [h]

/-- No pid is listed twice, so every process is compared with the time remembered before. -/
theorem processSnapshots_rows {readings : List ProcessReading}
    (hpids : (readings.map ProcessReading.pid).Nodup) (times : TreeMap ℤ UInt64) :
    (processSnapshots s gpuActivePids seconds times readings).1 =
      readings.map (processSnapshot s gpuActivePids times seconds) := by
  suffices hall : ∀ times' : TreeMap ℤ UInt64,
      (∀ reading ∈ readings, times'[reading.pid]? = times[reading.pid]?) →
        (processSnapshots s gpuActivePids seconds times' readings).1 =
          readings.map (processSnapshot s gpuActivePids times seconds) from hall times fun _ _ => rfl
  induction readings with
  | nil => exact fun _ _ => rfl
  | cons reading readings ih =>
    intro times' hsame
    obtain ⟨hfirst, hrest⟩ := List.nodup_cons.mp hpids
    have hrow : processSnapshot s gpuActivePids times' seconds reading =
        processSnapshot s gpuActivePids times seconds reading := by
      unfold processSnapshot
      rw [cpuPercent_congr seconds (hsame reading List.mem_cons_self)]
    rw [List.map_cons, ← hrow]
    refine congrArg (_ :: ·) (ih hrest _ fun other hother => ?_)
    have hne : reading.pid ≠ other.pid := fun heq => hfirst (heq ▸ List.mem_map_of_mem hother)
    rw [getElem?_insert_of_ne hne]
    exact hsame other (List.mem_cons_of_mem _ hother)

/-- The times of a listing are remembered. -/
theorem processSnapshots_times {readings : List ProcessReading}
    (hpids : (readings.map ProcessReading.pid).Nodup) (times : TreeMap ℤ UInt64) :
    (∀ reading ∈ readings, (processSnapshots s gpuActivePids seconds times readings).2[reading.pid]? =
        some reading.totalTime) ∧
      ∀ pid, pid ∉ readings.map ProcessReading.pid →
        (processSnapshots s gpuActivePids seconds times readings).2[pid]? = times[pid]? := by
  induction readings generalizing times with
  | nil => exact ⟨fun _ h => absurd h List.not_mem_nil, fun _ _ => rfl⟩
  | cons reading readings ih =>
    obtain ⟨hfirst, hrest⟩ := List.nodup_cons.mp hpids
    obtain ⟨hlisted, hothers⟩ := ih hrest (times.insert reading.pid reading.totalTime)
    constructor
    · intro other hother
      rcases List.mem_cons.mp hother with rfl | hother
      · refine (hothers _ hfirst).trans ?_
        rw [TreeMap.getElem?_insert_self]
      · exact hlisted other hother
    · intro pid hpid
      obtain ⟨hne, hpid⟩ := not_or.mp fun heq => hpid (List.mem_cons.mpr heq)
      exact (hothers pid hpid).trans (getElem?_insert_of_ne (fun heq => hne heq.symm) _)

end Listing

/-! ## What a call remembers -/

/-- The clock and the remembered times of the process stage. -/
def Sampler.processClock (s : Sampler) : ℕ × TreeMap ℤ UInt64 :=
  (s.lastProcessSampleTime, s.previousProcessTimes)

section Parts
variable (σ : StdSort) (shared : RootMetrics) (input : SampleInput) (s : Sampler)

theorem sampleMemory_processClock : (sampleMemory input s).processClock = s.processClock := by
  unfold sampleMemory
  dsimp only
  repeat' split
  all_goals rfl

theorem sampleSystemIo_processClock : (sampleSystemIo input s).processClock = s.processClock := by
  unfold sampleSystemIo sampleNetwork sampleDisk samplePaging
  dsimp only
  repeat' split
  all_goals rfl

theorem sampleRootMetrics_processClock :
    (sampleRootMetrics shared input s).processClock = s.processClock := by
  unfold sampleRootMetrics
  split <;> rfl

theorem sampleGpu_processClock (probe : AppleGpuProbeResult) :
    (sampleGpu probe s).processClock = s.processClock := by
  unfold sampleGpu
  dsimp only
  split <;> rfl

theorem sampleCpu_processClock (host : HostInput) (s : DarwinSampler) :
    (sampleCpu σ host s).sampler.processClock = s.sampler.processClock := by
  unfold sampleCpu
  split <;> rfl

end Parts

/-! ## The elapsed time -/

/-- The seconds since the last attempt, successful or not. -/
def processSeconds (last now : ℕ) : Double :=
  if last = 0 then 0 else divRounded (ofRat ((now : ℚ) - (last : ℚ))).rounded 1000000000

theorem ofRat_natCast (n : ℕ) : ofRat (n : ℚ) = .finite false n := by
  have hnonneg : ¬ ((n : ℚ) < 0) := (Nat.cast_nonneg n).not_gt
  unfold ofRat
  rw [decide_eq_false hnonneg]
  congr 1
  ext
  push_cast
  exact abs_of_nonneg (Nat.cast_nonneg n)

theorem between_natCast {n : ℕ} {b : ℕ} (hpos : 0 < n) (hlt : n ≤ 2 ^ b) :
    Between 0 b (n : ℚ≥0) := by
  constructor
  · rw [zpow_zero]
    exact_mod_cast hpos
  · rw [zpow_natCast]
    exact_mod_cast hlt

theorem between_billion : Between 29 30 (1000000000 : ℚ≥0) := ⟨by norm_num, by norm_num⟩

theorem between_tenMillion : Between 23 24 (10000000 : ℚ≥0) := ⟨by norm_num, by norm_num⟩

/-- On a clock that has moved on, the seconds are two roundings from the exact ones. -/
theorem processSeconds_of_lt {last now : ℕ} (hlast : 0 < last) (hlt : last < now)
    (hclock : now < 2 ^ 63) :
    ∃ q, processSeconds last now = .finite false q ∧ Between (-30) 34 q ∧
      Within 2 q (((now - last : ℕ) : ℚ≥0) / 1000000000) := by
  have hbetween : Between 0 63 ((now - last : ℕ) : ℚ≥0) :=
    between_natCast (Nat.sub_pos_of_lt hlt) ((Nat.sub_le _ _).trans hclock.le)
  have hcount := hbetween.nearest (by norm_num)
  have hexact : ((now : ℚ) - (last : ℚ)) = ((now - last : ℕ) : ℚ) := by
    rw [Nat.cast_sub hlt.le]
  have hrounded : (ofRat ((now : ℚ) - (last : ℚ))).rounded =
      .finite false (nearest ((now - last : ℕ) : ℚ≥0)) := by
    rw [hexact, ofRat_natCast]
    exact hbetween.rounded (by norm_num) (by norm_num) false
  have hquotient := hcount.div between_billion
  refine ⟨_, ?_, hquotient.nearest (by norm_num), ?_⟩
  · unfold processSeconds
    rw [if_neg hlast.ne', hrounded]
    exact divRounded_between hcount between_billion (by norm_num) (by norm_num)
  · exact (hquotient.within (by norm_num)).trans
      ((hbetween.within (by norm_num)).div (Within.refl _))

/-- A double with its sign bit set, no NaN. -/
def Negative (d : Double) : Prop := d = .inf true ∨ ∃ q, d = .finite true q

theorem negative_roundMagnitude (q : ℚ≥0) : Negative (roundMagnitude true q) := by
  rw [roundMagnitude_eq]
  split
  · exact .inl rfl
  · exact .inr ⟨_, rfl⟩

theorem Negative.divRounded {d : Double} (h : Negative d) {y : ℚ≥0} (hy : y ≠ 0) :
    Negative (Double.divRounded d (.finite false y)) := by
  rcases h with rfl | ⟨q, rfl⟩
  · exact .inl rfl
  · rw [show Double.divRounded (.finite true q) (.finite false y) = roundMagnitude true (q / y) from
      if_neg hy]
    exact negative_roundMagnitude _

theorem Negative.not_pos {d : Double} (h : Negative d) : Double.lt 0 d = false := by
  rcases h with rfl | ⟨q, rfl⟩
  · rfl
  · rw [Double.lt_eq_value rfl rfl, decide_eq_false_iff_not]
    intro hlt
    have hq : (0 : ℚ) ≤ q := q.2
    have hvalue : ((0 : ℕ) : ℚ) < -(q : ℚ) := (value_ofNat 0).symm.trans_lt hlt
    push_cast at hvalue
    linarith

/-- Before the first attempt, and on a clock that has not moved on, no time has passed. -/
theorem processSeconds_of_not {last now : ℕ} (h : ¬ (0 < last ∧ last < now)) :
    Double.lt 0 (processSeconds last now) = false := by
  unfold processSeconds
  by_cases hlast : last = 0
  · rw [if_pos hlast]
    decide
  rw [if_neg hlast]
  have hle : now ≤ last := Nat.le_of_not_lt fun hlt => h ⟨Nat.pos_of_ne_zero hlast, hlt⟩
  rcases hle.lt_or_eq with hlt | rfl
  · have hneg : ((now : ℚ) - (last : ℚ)) < 0 := sub_neg.mpr (by exact_mod_cast hlt)
    have hbillion : (1000000000 : ℚ≥0) ≠ 0 := by norm_num
    unfold ofRat
    rw [decide_eq_true hneg]
    exact ((negative_roundMagnitude _).divRounded hbillion).not_pos
  · rw [sub_self]
    decide +kernel

/-! ## One percentage -/

/-- The time since the last attempt has passed, and the process has not lost time since the last
listing. -/
def Comparable (earlier reading : ProcessReading) (last now : ℕ) : Prop :=
  earlier.totalTime ≤ reading.totalTime ∧ 0 < last ∧ last < now

/-- The time used since the last listing, in percent of the time since the last attempt. -/
def usedPercent (earlier reading : ProcessReading) (last now : ℕ) : ℚ≥0 :=
  ((reading.totalTime - earlier.totalTime).toNat : ℚ≥0) / (((now - last : ℕ) : ℚ≥0) / 1000000000) /
    10000000

/-- What a process is shown to use: five roundings from the exact percentage, or nothing where there
is nothing to compare. -/
def ShowsShare (earlier : Option ProcessReading) (reading : ProcessReading) (last now : ℕ)
    (percent : Double) : Prop :=
  (∀ before, earlier = some before → Comparable before reading last now →
    ∃ q, percent = .finite false q ∧ Within 5 q (usedPercent before reading last now)) ∧
  ((∀ before, earlier = some before → ¬ Comparable before reading last now) → percent = 0)

/-- The two divisions of the loop body. -/
theorem percent_of_seconds {delta : ℕ} (hdelta : delta < 2 ^ 64) {seconds exact : ℚ≥0}
    (hrange : Between (-30) 34 seconds) (hnear : Within 2 seconds exact) :
    ∃ q, divRounded (divRounded (ofNat delta).rounded (.finite false seconds)) 10000000 =
        .finite false q ∧ Within 5 q (delta / exact / 10000000) := by
  rcases Nat.eq_zero_or_pos delta with rfl | hpos
  · refine ⟨0, ?_, ?_⟩
    · have hzero : divRounded (.finite false 0) (.finite false seconds) = .finite false 0 := by
        rw [show divRounded (.finite false 0) (.finite false seconds) =
          roundMagnitude false (0 / seconds) from if_neg hrange.pos.ne', zero_div]
        rfl
      rw [show (ofNat 0).rounded = .finite false 0 from rfl, hzero]
      decide +kernel
    · rw [Nat.cast_zero, zero_div, zero_div]
      exact ⟨by rw [zero_mul], by rw [zero_mul]⟩
  · have hcount : Between 0 64 (delta : ℚ≥0) := between_natCast hpos hdelta.le
    have hrounded := hcount.nearest (by norm_num)
    have hquotient := hrounded.div hrange
    have hresult := (hquotient.nearest (by norm_num)).div between_tenMillion
    refine ⟨_, ?_, (hresult.within (by norm_num)).trans
      (((hquotient.within (by norm_num)).trans
        ((hcount.within (by norm_num)).div hnear)).div (Within.refl _))⟩
    rw [show (ofNat delta).rounded = .finite false (nearest (delta : ℚ≥0)) from
        hcount.rounded (by norm_num) (by norm_num) false,
      divRounded_between hrounded hrange (by norm_num) (by norm_num)]
    exact divRounded_between (hquotient.nearest (by norm_num)) between_tenMillion (by norm_num)
      (by norm_num)

theorem cpuPercent_shows {times : TreeMap ℤ UInt64} {earlier : Option ProcessReading}
    {reading : ProcessReading} {last now : ℕ} (hclock : now < 2 ^ 63)
    (htimes : times[reading.pid]? = earlier.map (·.totalTime)) :
    ShowsShare earlier reading last now (cpuPercent times (processSeconds last now) reading) := by
  unfold cpuPercent
  rw [htimes]
  constructor
  · rintro before rfl ⟨hle, hlast, hlt⟩
    obtain ⟨seconds, hseconds, hrange, hnear⟩ := processSeconds_of_lt hlast hlt hclock
    have hpos : Double.lt 0 (.finite false seconds) = true := by
      rw [Double.lt_eq_value rfl rfl, decide_eq_true_eq]
      have hq : (0 : ℚ) < seconds := by exact_mod_cast hrange.pos
      exact (value_ofNat 0).trans_lt (by push_cast; exact hq)
    dsimp only [Option.map_some]
    rw [hseconds, hpos, Bool.true_and, if_pos (decide_eq_true hle)]
    exact percent_of_seconds (UInt64.toNat_lt _) hrange hnear
  · intro hnone
    cases earlier with
    | none => rfl
    | some before =>
      dsimp only [Option.map_some]
      split
      · rename_i hguard
        obtain ⟨hseconds, hle⟩ := Bool.and_eq_true_iff.mp hguard
        by_cases hmoved : 0 < last ∧ last < now
        · exact absurd ⟨of_decide_eq_true hle, hmoved⟩ (hnone before rfl)
        · rw [processSeconds_of_not hmoved] at hseconds
          cases hseconds
      · rfl

/-! ## Whole runs -/

section Runs
variable (σ : StdSort)

/-- The times of a listing, and nothing else, are remembered. -/
def RemembersListing (times : TreeMap ℤ UInt64) (readings : List ProcessReading) : Prop :=
  ∀ pid, times[pid]? = (readings.find? fun reading => reading.pid = pid).map (·.totalTime)

theorem remembers_of_mem {times : TreeMap ℤ UInt64} {readings : List ProcessReading}
    (hlisted : ∀ reading ∈ readings, times[reading.pid]? = some reading.totalTime)
    (hothers : ∀ pid, pid ∉ readings.map ProcessReading.pid → times[pid]? = none) :
    RemembersListing times readings := by
  intro pid
  cases hfind : readings.find? fun reading => reading.pid = pid with
  | none =>
    refine hothers pid fun hmem => ?_
    obtain ⟨reading, hreading, hpid⟩ := List.mem_map.mp hmem
    exact List.find?_eq_none.mp hfind reading hreading (decide_eq_true hpid)
  | some reading =>
    have hpid := List.find?_some hfind
    obtain rfl : reading.pid = pid := of_decide_eq_true hpid
    exact hlisted reading (List.mem_of_find?_eq_some hfind)

theorem sampleProcesses_failed {input : SampleInput} (h : input.listing = none) (s : Sampler) :
    (sampleProcesses σ input s).processClock = (input.processTime, s.previousProcessTimes) := by
  have hnone : input.processes = none := Option.map_eq_none_iff.mp h
  unfold sampleProcesses
  rw [hnone]
  rfl

/-- A successful listing: its rows, and what it leaves for the next. -/
theorem sampleProcesses_listed {input : SampleInput} {readings : List ProcessReading}
    (h : input.listing = some readings) (hpids : (readings.map ProcessReading.pid).Nodup)
    (s : Sampler) :
    (sampleProcesses σ input s).lastProcessSampleTime = input.processTime ∧
      RemembersListing (sampleProcesses σ input s).previousProcessTimes readings ∧
      ∀ process ∈ (sampleProcesses σ input s).snapshot.processes, ∃ reading ∈ readings,
        process.pid = reading.pid ∧ process.totalCpuTimeNs = reading.totalTime ∧
        process.cpuPercent = cpuPercent s.previousProcessTimes
          (processSeconds s.lastProcessSampleTime input.processTime) reading := by
  obtain ⟨all, hall, rfl⟩ := Option.map_eq_some_iff.mp h
  unfold sampleProcesses
  rw [hall]
  refine ⟨rfl, ?_, ?_⟩
  · dsimp only
    obtain ⟨hlisted, -⟩ := processSnapshots_times
      { s with lastProcessSampleTime := input.processTime } input.gpuActivePids
      (processSeconds s.lastProcessSampleTime input.processTime) hpids s.previousProcessTimes
    refine remembers_of_mem (fun reading hreading => ?_) fun pid hpid => ?_
    · rw [TreeMap.getElem?_filter']
      refine (congrArg (Option.filter _) (hlisted reading hreading)).trans ?_
      have hlive : (all.filter fun reading => 0 < reading.pid).any (fun r => r.pid == reading.pid) =
          true := List.any_eq_true.mpr ⟨reading, hreading, beq_self_eq_true reading.pid⟩
      exact if_pos hlive
    · rw [TreeMap.getElem?_filter', Option.filter_eq_none_iff]
      intro time _ hany
      obtain ⟨reading, hreading, heq⟩ := List.any_eq_true.mp hany
      exact hpid (List.mem_map.mpr ⟨reading, hreading, beq_iff_eq.mp heq⟩)
  · intro process hprocess
    have hrow := (σ.perm _ _).mem_iff.mp hprocess
    have hrows := processSnapshots_rows { s with lastProcessSampleTime := input.processTime }
      input.gpuActivePids (processSeconds s.lastProcessSampleTime input.processTime) hpids
      s.previousProcessTimes
    obtain ⟨reading, hreading, rfl⟩ := List.mem_map.mp (hrows ▸ hrow)
    exact ⟨reading, hreading, rfl, rfl, rfl⟩

/-- The process stage ends a sample; the stages before it leave its clock alone. -/
theorem sampleHost_processes (shared : RootMetrics) (host : HostInput) (s : DarwinSampler) :
    ∃ before, before.processClock = s.sampler.processClock ∧
      (sampleHost σ shared host s).sampler =
        sampleProcesses σ { host.input with gpuActivePids := host.gpu.activePids } before := by
  refine ⟨_, ?_, rfl⟩
  rw [sampleGpu_processClock, sampleRootMetrics_processClock, sampleCpu_processClock,
    sampleSystemIo_processClock, sampleMemory_processClock]
  rfl

/-- The time of the last attempt to list the processes, 0 before the first. -/
def lastAttempt (samples : List (RootMetrics × HostInput)) : ℕ :=
  (samples.getLast?.map fun sample => sample.2.input.processTime).getD 0

/-- The processes of the last successful listing. -/
def latestListing (samples : List (RootMetrics × HostInput)) : List ProcessReading :=
  (samples.reverse.findSome? fun sample => sample.2.input.listing).getD []

/-- The kernel lists no pid twice. -/
def PidsOnce (samples : List (RootMetrics × HostInput)) : Prop :=
  ∀ sample ∈ samples, ∀ readings, sample.2.input.listing = some readings →
    (readings.map ProcessReading.pid).Nodup

theorem runHost_processClock (rootMode : Bool) (levels : List PerfLevelInfo)
    {samples : List (RootMetrics × HostInput)} (hpids : PidsOnce samples) :
    (runHost σ samples (newDarwinSampler σ rootMode levels)).sampler.lastProcessSampleTime =
        lastAttempt samples ∧
      RemembersListing (runHost σ samples (newDarwinSampler σ rootMode levels)).sampler.previousProcessTimes
        (latestListing samples) := by
  induction samples using List.reverseRecOn with
  | nil => exact ⟨rfl, fun pid => TreeMap.getElem?_emptyc⟩
  | append_singleton samples sample ih =>
    obtain ⟨-, htimes⟩ := ih fun earlier hearlier => hpids earlier (List.mem_append_left _ hearlier)
    have hlast := hpids sample (List.mem_append_right _ (List.mem_singleton_self sample))
    obtain ⟨before, hclock, hsample⟩ := sampleHost_processes σ sample.1 sample.2
      (runHost σ samples (newDarwinSampler σ rootMode levels))
    obtain ⟨-, hbefore⟩ := Prod.mk.inj hclock
    have hattempt : lastAttempt (samples ++ [sample]) = sample.2.input.processTime := by
      unfold lastAttempt
      rw [List.getLast?_append]
      rfl
    rw [runHost_append, hsample, hattempt]
    have hlatest : latestListing (samples ++ [sample]) =
        sample.2.input.listing.getD (latestListing samples) := by
      unfold latestListing
      rw [List.reverse_append, List.reverse_singleton, List.singleton_append, List.findSome?_cons]
      cases sample.2.input.listing <;> rfl
    rw [hlatest]
    generalize hinput : ({ sample.2.input with gpuActivePids := sample.2.gpu.activePids } :
      SampleInput) = input
    have hsameTime : input.processTime = sample.2.input.processTime := by rw [← hinput]
    have hsameListing : input.listing = sample.2.input.listing := by rw [← hinput]; rfl
    rw [← hsameTime]
    cases hlisting : sample.2.input.listing with
    | none =>
      obtain ⟨htime, hsame⟩ := Prod.mk.inj
        (sampleProcesses_failed σ (hsameListing.trans hlisting) before)
      refine ⟨htime, ?_⟩
      rw [hsame, hbefore]
      exact htimes
    | some readings =>
      obtain ⟨htime, hremembers, -⟩ := sampleProcesses_listed σ (hsameListing.trans hlisting)
        (hlast readings hlisting) before
      exact ⟨htime, hremembers⟩

/-- In every run, each process of a sample shows the time it has used since the last listing in
percent of the time since the last attempt, up to five roundings, and 0 where the pid was not listed,
its time has gone back, or the clock has not moved on. -/
theorem processes_show_share (rootMode : Bool) (levels : List PerfLevelInfo)
    {samples : List (RootMetrics × HostInput)} {sample : RootMetrics × HostInput}
    (hpids : PidsOnce (samples ++ [sample])) (hclock : sample.2.input.processTime < 2 ^ 63) :
    ∀ process ∈ (runHost σ (samples ++ [sample])
        (newDarwinSampler σ rootMode levels)).sampler.snapshot.processes,
      ∃ reading ∈ sample.2.input.listing.getD [], process.pid = reading.pid ∧
        process.totalCpuTimeNs = reading.totalTime ∧
        ShowsShare ((latestListing samples).find? fun earlier => earlier.pid = reading.pid) reading
          (lastAttempt samples) sample.2.input.processTime process.cpuPercent := by
  intro process hprocess
  obtain ⟨htime, hremembers⟩ := runHost_processClock σ rootMode levels
    fun earlier hearlier => hpids earlier (List.mem_append_left _ hearlier)
  obtain ⟨before, hbefore, hsample⟩ := sampleHost_processes σ sample.1 sample.2
    (runHost σ samples (newDarwinSampler σ rootMode levels))
  obtain ⟨hlast, htimes⟩ := Prod.mk.inj hbefore
  rw [runHost_append, hsample] at hprocess
  cases hlisting : sample.2.input.listing with
  | none =>
    have hfailed : sample.2.input.processes = none := Option.map_eq_none_iff.mp hlisting
    unfold sampleProcesses at hprocess
    simp only [hfailed] at hprocess
    exact absurd hprocess List.not_mem_nil
  | some readings =>
    have hnodup := hpids sample (List.mem_append_right _ (List.mem_singleton_self sample)) readings
      hlisting
    obtain ⟨-, -, hrows⟩ := sampleProcesses_listed σ
      (show ({ sample.2.input with gpuActivePids := sample.2.gpu.activePids } :
        SampleInput).listing = some readings from hlisting) hnodup before
    obtain ⟨reading, hreading, hpid, htotal, hpercent⟩ := hrows process hprocess
    refine ⟨reading, hreading, hpid, htotal, ?_⟩
    rw [hpercent, hlast, htimes, htime]
    exact cpuPercent_shows hclock (hremembers reading.pid)

/-- What a sample sees when one process has used this much time. -/
def listingAt (processTime : ℕ) (totalTime : UInt64) : RootMetrics × HostInput :=
  ({}, { input := { processTime, processes := some [{ pid := 7, totalTime }] } })

/-- A process is listed at 1 s and a listing fails at 2 s. -/
def failedListingRun : List (RootMetrics × HostInput) :=
  [listingAt 1000000000 5, ({}, { input := { processTime := 2000000000 } })]

/-- One second of time used since the last listing, over the one second since the failure. -/
theorem processes_show_share_failed :
    ∃ process ∈ (runHost .insertion (failedListingRun ++ [listingAt 3000000000 1000000005])
        (newDarwinSampler .insertion false [])).sampler.snapshot.processes,
      ∃ q, process.cpuPercent = .finite false q ∧ Within 5 q 100 := by
  have hlisted : (runHost .insertion (failedListingRun ++ [listingAt 3000000000 1000000005])
      (newDarwinSampler .insertion false [])).sampler.snapshot.processes.isEmpty = false := by
    decide
  obtain ⟨process, hprocess⟩ := List.exists_mem_of_ne_nil _ (List.isEmpty_eq_false_iff.mp hlisted)
  have hpids : PidsOnce (failedListingRun ++ [listingAt 3000000000 1000000005]) := by
    intro sample hsample readings hlisting
    unfold failedListingRun at hsample
    simp only [List.cons_append, List.nil_append, List.mem_cons, List.not_mem_nil, or_false] at hsample
    rcases hsample with rfl | rfl | rfl
    · cases hlisting
      decide
    · cases hlisting
    · cases hlisting
      decide
  obtain ⟨reading, hreading, -, -, hshare, -⟩ :=
    processes_show_share .insertion false [] hpids (by decide) process hprocess
  obtain rfl : reading = { pid := 7, totalTime := 1000000005 } := List.mem_singleton.mp hreading
  obtain ⟨q, hq, hnear⟩ := hshare { pid := 7, totalTime := 5 } rfl ⟨by decide, by decide, by decide⟩
  refine ⟨process, hprocess, q, hq, ?_⟩
  have hexact : usedPercent { pid := 7, totalTime := 5 } { pid := 7, totalTime := 1000000005 }
      2000000000 3000000000 = 100 := by decide +kernel
  exact hexact ▸ hnear

end Runs
end Mtop
