import Mtop.Model.MemoryRisk

/-! `deriveMemoryRisk` taken apart: the figures come from the snapshot alone, the verdict on them
also from the history and the workloads. -/
namespace Mtop
open Cxx
set_option autoImplicit false

def reclaimableBytes (s : SystemSnapshot) : UInt64 :=
  s.memoryInactiveBytes + s.memorySpeculativeBytes + s.memoryPurgeableBytes

def strictUsed (s : SystemSnapshot) : UInt64 :=
  s.memoryWiredBytes + s.memoryActiveBytes + s.memoryCompressedBytes

def reclaimCredit (s : SystemSnapshot) : UInt64 :=
  min (reclaimableBytes s) (percentOf s.memoryTotalBytes 20)

def estimatedHeadroom (s : SystemSnapshot) : UInt64 :=
  if s.memoryTotalBytes > strictUsed s then s.memoryTotalBytes - strictUsed s + reclaimCredit s
  else reclaimCredit s

def swapRate (s : SystemSnapshot) : UInt64 := s.swapinsBytesPerSec + s.swapoutsBytesPerSec

def highSwapout (s : SystemSnapshot) : Bool := s.swapoutsBytesPerSec ≥ (16 : UInt64) <<< 20

/-- The sampler has delivered no memory counters. -/
def TotalsUnavailable (s : SystemSnapshot) : Prop :=
  s.memoryTotalBytes = 0 ∨
    (s.memoryWiredBytes = 0 ∧ s.memoryActiveBytes = 0 ∧ s.memoryUsedBytes = 0)

instance (s : SystemSnapshot) : Decidable (TotalsUnavailable s) :=
  inferInstanceAs (Decidable (_ ∨ _))

/-- The figures of the risk, before the verdict. -/
def riskFigures (s : SystemSnapshot) : MemoryRiskSnapshot where
  estimatedHeadroomBytes := if TotalsUnavailable s then 0 else estimatedHeadroom s
  reclaimableBytes := reclaimableBytes s
  compressedBytes := s.memoryCompressedBytes
  swapUsedBytes := s.swapUsedBytes
  swapRateBytesPerSec := swapRate s

/-- The chain of conditions on the exact figures. -/
def verdict (s : SystemSnapshot) (history : List SystemSnapshot)
    (workloads : List WorkloadSnapshot) : MemoryRiskLevel × Text :=
  if TotalsUnavailable s then (.unknown, str "memory totals unavailable")
  else riskLevel s history workloads (riskFigures s)

theorem deriveMemoryRisk_eq (s : SystemSnapshot) (history : List SystemSnapshot)
    (workloads : List WorkloadSnapshot) :
    deriveMemoryRisk s history workloads =
      { riskFigures s with
        level := (verdict s history workloads).1, reason := (verdict s history workloads).2 } := by
  unfold deriveMemoryRisk verdict
  by_cases h : TotalsUnavailable s
  · unfold riskFigures
    simp only [if_pos h]
    exact if_pos h
  · unfold riskFigures
    simp only [if_neg h]
    exact if_neg h

theorem deriveMemoryRisk_level (s : SystemSnapshot) (history : List SystemSnapshot)
    (workloads : List WorkloadSnapshot) :
    (deriveMemoryRisk s history workloads).level = (verdict s history workloads).1 := by
  rw [deriveMemoryRisk_eq]

theorem deriveMemoryRisk_reason (s : SystemSnapshot) (history : List SystemSnapshot)
    (workloads : List WorkloadSnapshot) :
    (deriveMemoryRisk s history workloads).reason = (verdict s history workloads).2 := by
  rw [deriveMemoryRisk_eq]

/-- The history and the workloads enter through three questions. -/
def chain (s : SystemSnapshot) (rising increasing large : Prop) [Decidable rising]
    [Decidable increasing] [Decidable large] : MemoryRiskLevel × Text :=
  if s.memoryPressure = .critical then (.critical, str "memory pressure critical")
  else if highSwapout s = true then (.critical, str "swapout rate rising")
  else if estimatedHeadroom s < percentOf s.memoryTotalBytes 5 ∧ rising then
    (.critical, str "estimated headroom below 5% with compression rising")
  else if s.memoryPressure = .warn then (.warn, str "memory pressure warn")
  else if increasing ∧ swapRate s > 0 then
    (.warn, str "swap used increasing with active paging")
  else if estimatedHeadroom s < percentOf s.memoryTotalBytes 10 then
    (.warn, str "estimated headroom below 10%")
  else if s.memoryCompressedBytes > percentOf s.memoryTotalBytes 10 then
    (.watch, str "compressed memory above 10%")
  else if large then (.watch, str "workload RSS above 50% of memory")
  else if estimatedHeadroom s < percentOf s.memoryTotalBytes 20 then
    (.watch, str "estimated headroom below 20%")
  else (.ok, str "memory headroom healthy")

theorem verdict_eq_chain {s : SystemSnapshot} (h : ¬ TotalsUnavailable s)
    (history : List SystemSnapshot) (workloads : List WorkloadSnapshot) :
    verdict s history workloads =
      chain s (compressedRising s history = true) (swapUsedIncreasing s history = true)
        (workloadRssTotal workloads > s.memoryTotalBytes / 2) := by
  unfold verdict chain riskLevel riskFigures highSwapout
  simp only [if_neg h, decide_eq_true_eq]

section Reasons
variable {s : SystemSnapshot} {rising increasing large : Prop} [Decidable rising]
  [Decidable increasing] [Decidable large]

/-! ## A reason is given only for its own condition -/

/-- A branch with another reason was not taken. -/
theorem rest_of_reason {p : Prop} [Decidable p] {level : MemoryRiskLevel} {reason target : String}
    {rest : MemoryRiskLevel × Text} (hne : reason ≠ target)
    (h : (if p then (level, str reason) else rest).2 = str target) : rest.2 = str target := by
  by_cases hp : p
  · rw [if_pos hp] at h
    exact absurd (str_inj.mp h) hne
  · rwa [if_neg hp] at h

theorem reason_compression (h : (chain s rising increasing large).2 =
    str "estimated headroom below 5% with compression rising") :
    estimatedHeadroom s < percentOf s.memoryTotalBytes 5 ∧ rising := by
  by_contra hno
  unfold chain at h
  rw [if_neg hno] at h
  repeat replace h := rest_of_reason (by decide) h
  exact absurd (str_inj.mp h) (by decide)

theorem reason_swap (h : (chain s rising increasing large).2 =
    str "swap used increasing with active paging") : increasing ∧ swapRate s > 0 := by
  by_contra hno
  unfold chain at h
  rw [if_neg hno] at h
  repeat replace h := rest_of_reason (by decide) h
  exact absurd (str_inj.mp h) (by decide)

theorem reason_rss (h : (chain s rising increasing large).2 =
    str "workload RSS above 50% of memory") : large := by
  by_contra hno
  unfold chain at h
  rw [if_neg hno] at h
  repeat replace h := rest_of_reason (by decide) h
  exact absurd (str_inj.mp h) (by decide)

/-! ## When another history or other workloads change nothing -/

theorem chain_compression (hcritical : s.memoryPressure ≠ .critical)
    (hswapout : ¬ highSwapout s = true)
    (h : estimatedHeadroom s < percentOf s.memoryTotalBytes 5 ∧ rising) :
    chain s rising increasing large =
      (.critical, str "estimated headroom below 5% with compression rising") := by
  unfold chain
  rw [if_neg hcritical, if_neg hswapout, if_pos h]

theorem chain_swap (hcritical : s.memoryPressure ≠ .critical) (hswapout : ¬ highSwapout s = true)
    (hcompression : ¬ (estimatedHeadroom s < percentOf s.memoryTotalBytes 5 ∧ rising))
    (hwarn : s.memoryPressure ≠ .warn) (h : increasing ∧ swapRate s > 0) :
    chain s rising increasing large =
      (.warn, str "swap used increasing with active paging") := by
  unfold chain
  rw [if_neg hcritical, if_neg hswapout, if_neg hcompression, if_neg hwarn, if_pos h]

section Histories
variable {rising' increasing' : Prop} [Decidable rising'] [Decidable increasing']

theorem rising_of_reason (hcritical : s.memoryPressure ≠ .critical)
    (hswapout : ¬ highSwapout s = true) (hlow : estimatedHeadroom s < percentOf s.memoryTotalBytes 5)
    (h : (chain s rising increasing large).2 = (chain s rising' increasing' large).2)
    (hrising : rising) : rising' := by
  rw [chain_compression hcritical hswapout ⟨hlow, hrising⟩] at h
  exact (reason_compression h.symm).2

theorem increasing_of_reason (hcritical : s.memoryPressure ≠ .critical)
    (hswapout : ¬ highSwapout s = true)
    (hcompression : ¬ (estimatedHeadroom s < percentOf s.memoryTotalBytes 5 ∧ rising))
    (hwarn : s.memoryPressure ≠ .warn) (hrate : swapRate s > 0)
    (h : (chain s rising increasing large).2 = (chain s rising' increasing' large).2)
    (hincreasing : increasing) : increasing' := by
  rw [chain_swap hcritical hswapout hcompression hwarn ⟨hincreasing, hrate⟩] at h
  exact (reason_swap h.symm).1

/-- Where the compression rule fails for both, they differ at most in the swap rule. -/
theorem chain_eq_of_increasing (hcritical : s.memoryPressure ≠ .critical)
    (hswapout : ¬ highSwapout s = true)
    (hcompression : ¬ (estimatedHeadroom s < percentOf s.memoryTotalBytes 5 ∧ rising))
    (hcompression' : ¬ (estimatedHeadroom s < percentOf s.memoryTotalBytes 5 ∧ rising'))
    (h : s.memoryPressure = .warn ∨ swapRate s = 0 ∨ (increasing ↔ increasing')) :
    chain s rising increasing large = chain s rising' increasing' large := by
  unfold chain
  rw [if_neg hcritical, if_neg hcritical, if_neg hswapout, if_neg hswapout, if_neg hcompression,
    if_neg hcompression']
  refine if_ctx_congr Iff.rfl (fun _ => rfl) fun hwarn => ?_
  rcases h.resolve_left hwarn with hrate | hincreasing
  · have hzero : ¬ swapRate s > 0 := by rw [hrate]; exact UInt64.lt_irrefl 0
    have hswap : ¬ (increasing ∧ swapRate s > 0) := fun hi => hzero hi.2
    have hswap' : ¬ (increasing' ∧ swapRate s > 0) := fun hi => hzero hi.2
    rw [if_neg hswap, if_neg hswap']
  · exact if_congr (and_congr_left' hincreasing) rfl rfl

/-- Two histories are told apart only where the chain asks them a question and their answers
differ. -/
theorem chain_history_iff :
    chain s rising increasing large = chain s rising' increasing' large ↔
      s.memoryPressure = .critical ∨ highSwapout s = true ∨
        ((estimatedHeadroom s < percentOf s.memoryTotalBytes 5 → (rising ↔ rising')) ∧
          ((estimatedHeadroom s < percentOf s.memoryTotalBytes 5 ∧ rising) ∨
            s.memoryPressure = .warn ∨ swapRate s = 0 ∨ (increasing ↔ increasing'))) := by
  by_cases hcritical : s.memoryPressure = .critical
  · refine iff_of_true ?_ (.inl hcritical)
    unfold chain
    rw [if_pos hcritical, if_pos hcritical]
  by_cases hswapout : highSwapout s = true
  · refine iff_of_true ?_ (.inr (.inl hswapout))
    unfold chain
    rw [if_neg hcritical, if_neg hcritical, if_pos hswapout, if_pos hswapout]
  rw [eq_false hcritical, eq_false hswapout, false_or, false_or]
  constructor
  · intro h
    have hreason := congrArg Prod.snd h
    have hrising : estimatedHeadroom s < percentOf s.memoryTotalBytes 5 → (rising ↔ rising') :=
      fun hlow => ⟨rising_of_reason hcritical hswapout hlow hreason,
        rising_of_reason hcritical hswapout hlow hreason.symm⟩
    refine ⟨hrising, ?_⟩
    by_contra hno
    simp only [not_or] at hno
    obtain ⟨hcompression, hwarn, hrate, hincreasing⟩ := hno
    have hcompression' : ¬ (estimatedHeadroom s < percentOf s.memoryTotalBytes 5 ∧ rising') :=
      fun hr => hcompression ⟨hr.1, (hrising hr.1).mpr hr.2⟩
    have hpositive : swapRate s > 0 := UInt64.pos_iff_ne_zero.mpr hrate
    exact hincreasing
      ⟨increasing_of_reason hcritical hswapout hcompression hwarn hpositive hreason,
        increasing_of_reason hcritical hswapout hcompression' hwarn hpositive hreason.symm⟩
  · rintro ⟨hrising, hrest⟩
    by_cases hcompression : estimatedHeadroom s < percentOf s.memoryTotalBytes 5 ∧ rising
    · have hcompression' : estimatedHeadroom s < percentOf s.memoryTotalBytes 5 ∧ rising' :=
        ⟨hcompression.1, (hrising hcompression.1).mp hcompression.2⟩
      rw [chain_compression hcritical hswapout hcompression,
        chain_compression hcritical hswapout hcompression']
    · have hcompression' : ¬ (estimatedHeadroom s < percentOf s.memoryTotalBytes 5 ∧ rising') :=
        fun hr => hcompression ⟨hr.1, (hrising hr.1).mpr hr.2⟩
      exact chain_eq_of_increasing hcritical hswapout hcompression hcompression'
        (hrest.resolve_left hcompression)

end Histories

/-- Workloads are told apart only by the rule on their total, where nothing before it applies. -/
theorem chain_workloads_iff {large' : Prop} [Decidable large'] :
    chain s rising increasing large = chain s rising increasing large' ↔
      s.memoryPressure = .critical ∨ highSwapout s = true ∨
        (estimatedHeadroom s < percentOf s.memoryTotalBytes 5 ∧ rising) ∨
        s.memoryPressure = .warn ∨ (increasing ∧ swapRate s > 0) ∨
        estimatedHeadroom s < percentOf s.memoryTotalBytes 10 ∨
        s.memoryCompressedBytes > percentOf s.memoryTotalBytes 10 ∨ (large ↔ large') := by
  constructor
  · intro h
    have hreason := congrArg Prod.snd h
    by_contra hno
    simp only [not_or] at hno
    obtain ⟨hcritical, hswapout, hcompression, hwarn, hswap, hlow, hcompressed, hlarge⟩ := hno
    have hchain : ∀ (q : Prop) [Decidable q], q →
        (chain s rising increasing q).2 = str "workload RSS above 50% of memory" := by
      intro q _ hq
      unfold chain
      rw [if_neg hcritical, if_neg hswapout, if_neg hcompression, if_neg hwarn, if_neg hswap,
        if_neg hlow, if_neg hcompressed, if_pos hq]
    refine hlarge ⟨fun hl => ?_, fun hl => ?_⟩
    · exact reason_rss (hreason.symm.trans (hchain large hl))
    · exact reason_rss (hreason.trans (hchain large' hl))
  · rintro h
    unfold chain
    by_cases hcritical : s.memoryPressure = .critical
    · rw [if_pos hcritical, if_pos hcritical]
    rw [if_neg hcritical, if_neg hcritical]
    refine if_ctx_congr Iff.rfl (fun _ => rfl) fun hswapout => ?_
    refine if_ctx_congr Iff.rfl (fun _ => rfl) fun hcompression => ?_
    refine if_ctx_congr Iff.rfl (fun _ => rfl) fun hwarn => ?_
    refine if_ctx_congr Iff.rfl (fun _ => rfl) fun hswap => ?_
    refine if_ctx_congr Iff.rfl (fun _ => rfl) fun hlow => ?_
    refine if_ctx_congr Iff.rfl (fun _ => rfl) fun hcompressed => ?_
    have hrest := ((h.resolve_left hcritical).resolve_left hswapout).resolve_left hcompression
    have hlarge := (((hrest.resolve_left hwarn).resolve_left hswap).resolve_left hlow).resolve_left
      hcompressed
    exact if_congr hlarge rfl rfl

end Reasons

section Verdicts
variable (s : SystemSnapshot) (history : List SystemSnapshot) (workloads : List WorkloadSnapshot)

/-- The questions that the chain asks about the history have the same answers for two of them. -/
def SameAnswers (history' : List SystemSnapshot) : Prop :=
  TotalsUnavailable s ∨ s.memoryPressure = .critical ∨ highSwapout s = true ∨
    ((estimatedHeadroom s < percentOf s.memoryTotalBytes 5 →
        (compressedRising s history = true ↔ compressedRising s history' = true)) ∧
      ((estimatedHeadroom s < percentOf s.memoryTotalBytes 5 ∧ compressedRising s history = true) ∨
        s.memoryPressure = .warn ∨ swapRate s = 0 ∨
        (swapUsedIncreasing s history = true ↔ swapUsedIncreasing s history' = true)))

/-- The rule on the resident total is not reached, or decides alike for two lists of workloads. -/
def SameTotalRule (workloads' : List WorkloadSnapshot) : Prop :=
  TotalsUnavailable s ∨ s.memoryPressure = .critical ∨ highSwapout s = true ∨
    (estimatedHeadroom s < percentOf s.memoryTotalBytes 5 ∧ compressedRising s history = true) ∨
    s.memoryPressure = .warn ∨ (swapUsedIncreasing s history = true ∧ swapRate s > 0) ∨
    estimatedHeadroom s < percentOf s.memoryTotalBytes 10 ∨
    s.memoryCompressedBytes > percentOf s.memoryTotalBytes 10 ∨
    (workloadRssTotal workloads > s.memoryTotalBytes / 2 ↔
      workloadRssTotal workloads' > s.memoryTotalBytes / 2)

theorem verdict_history_iff (history' : List SystemSnapshot) :
    verdict s history workloads = verdict s history' workloads ↔ SameAnswers s history history' := by
  unfold SameAnswers
  by_cases h : TotalsUnavailable s
  · refine iff_of_true ?_ (.inl h)
    unfold verdict
    rw [if_pos h, if_pos h]
  · rw [verdict_eq_chain h, verdict_eq_chain h, chain_history_iff, eq_false h, false_or]

theorem verdict_workloads_iff (workloads' : List WorkloadSnapshot) :
    verdict s history workloads = verdict s history workloads' ↔
      SameTotalRule s history workloads workloads' := by
  unfold SameTotalRule
  by_cases h : TotalsUnavailable s
  · refine iff_of_true ?_ (.inl h)
    unfold verdict
    rw [if_pos h, if_pos h]
  · rw [verdict_eq_chain h, verdict_eq_chain h, chain_workloads_iff, eq_false h, false_or]

variable {workloads}

/-- Of the workloads only their resident total matters. -/
theorem deriveMemoryRisk_congr {workloads' : List WorkloadSnapshot}
    (h : workloadRssTotal workloads = workloadRssTotal workloads') :
    deriveMemoryRisk s history workloads = deriveMemoryRisk s history workloads' := by
  have hverdict : verdict s history workloads = verdict s history workloads' :=
    (verdict_workloads_iff s history workloads workloads').mpr (by
      unfold SameTotalRule
      rw [h]
      simp only [or_true])
  rw [deriveMemoryRisk_eq, deriveMemoryRisk_eq, hverdict]

theorem workloadRssTotal_perm {workloads' : List WorkloadSnapshot}
    (h : workloads.Perm workloads') : workloadRssTotal workloads = workloadRssTotal workloads' := by
  refine h.foldl_eq' (fun x _ y _ total => ?_) 0
  rw [UInt64.add_assoc, UInt64.add_assoc, UInt64.add_comm x.residentBytes]

end Verdicts

end Mtop
