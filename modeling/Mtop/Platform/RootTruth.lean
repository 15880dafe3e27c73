import Mtop.Platform.RootMetrics

/-! What the statuses of a round of root sampling say about its three commands. One flag, set when
the property list is decoded, stands behind all of them. -/
namespace Mtop
open Cxx Std Capture
set_option autoImplicit false

/-! ## The flags of a round -/

/-- What the loop and the foreground branch on. -/
structure RootFlags where
  available : Bool
  stale : Bool
  sampled : Bool

def RootMetrics.flags (metrics : RootMetrics) : RootFlags :=
  ⟨metrics.available, metrics.stale, metrics.sampled⟩

section Stages
variable {decode : Text → Option PowerPlist} {parseAmpData : Text → AmpData}
  {commands : RootCommands}

theorem noteFailure_flags (result : CommandResult) (otherwise : Text) (metrics : RootMetrics) :
    (noteFailure result otherwise metrics).flags = metrics.flags := by
  unfold noteFailure
  split <;> rfl

theorem collectTasks_flags (commands : RootCommands) (metrics : RootMetrics) :
    (collectTasks parseAmpData commands metrics).flags = metrics.flags := by
  unfold collectTasks
  dsimp only
  split
  · exact (noteFailure_flags _ _ _).trans (noteFailure_flags _ _ _)
  · exact noteFailure_flags _ _ _

theorem readProcessor_flags (processor : PowerProcessor) (metrics : RootMetrics) :
    (readProcessor processor metrics).flags = metrics.flags := by
  unfold readProcessor
  cases processor.aneEnergy <;> rfl

theorem readPlist_flags (plist : PowerPlist) (metrics : RootMetrics) :
    (readPlist plist metrics).flags = { metrics.flags with available := true } := by
  unfold readPlist
  dsimp only
  cases plist.thermalPressure.bind (cfStringGetCString · 128) <;> cases plist.gpuFreqHz <;>
    cases plist.processor with
    | none => rfl
    | some processor =>
      exact congrArg (fun flags : RootFlags => { flags with available := true })
        (readProcessor_flags processor _)

/-- The dictionary that a round reads, if any. -/
def suppliedPlist (decode : Text → Option PowerPlist) (commands : RootCommands) :
    Option PowerPlist :=
  if commands.tempFile && commands.plistResult.ok then decodePlist decode commands.plistBytes
  else none

theorem collectPlist_flags (commands : RootCommands) (metrics : RootMetrics) :
    (collectPlist decode commands metrics).flags =
      { metrics.flags with
        available := metrics.available || (suppliedPlist decode commands).isSome } := by
  unfold collectPlist suppliedPlist
  cases commands.tempFile with
  | false => simp [RootMetrics.flags]
  | true =>
    cases commands.plistResult.ok with
    | false => simp [RootMetrics.flags]
    | true =>
      cases decodePlist decode commands.plistBytes with
      | none => simp [RootMetrics.flags]
      | some plist => simp [readPlist_flags]

/-- A round is available exactly when it read a dictionary, and never stale. -/
theorem collectRootMetrics_flags (commands : RootCommands) :
    (collectRootMetrics decode parseAmpData commands).flags =
      ⟨(suppliedPlist decode commands).isSome, false, true⟩ := by
  have hflags (metrics : RootMetrics) :
      (if metrics.available = false ∧ metrics.failureReason = [] then
        { metrics with failureReason := str "parse failed" }
      else metrics).flags = metrics.flags := by
    split <;> rfl
  unfold collectRootMetrics
  dsimp only
  rw [hflags, collectTasks_flags, collectPlist_flags]
  rfl

/-- A round without a dictionary says why. -/
theorem collectRootMetrics_reason (commands : RootCommands)
    (h : (collectRootMetrics decode parseAmpData commands).available = false) :
    (collectRootMetrics decode parseAmpData commands).failureReason ≠ [] := by
  unfold collectRootMetrics at h ⊢
  dsimp only at h ⊢
  split
  · show str "parse failed" ≠ []
    simp
  · rename_i hreason
    rw [if_neg hreason] at h
    exact fun hnil => hreason ⟨h, hnil⟩

end Stages

/-! ## From the flags to the statuses -/

theorem toPublish_of_available {metrics : RootMetrics} (h : metrics.available = true)
    (lastSuccess : RootMetrics) : toPublish metrics lastSuccess = metrics := if_pos h

theorem toPublish_of_stale {metrics lastSuccess : RootMetrics} (h : metrics.available = false)
    (hlast : lastSuccess.available = true) :
    toPublish metrics lastSuccess =
      { lastSuccess with
        sampled := true
        stale := true
        failureReason :=
          if metrics.failureReason = [] then str "powermetrics sample failed"
          else metrics.failureReason } := by
  unfold toPublish
  rw [if_neg (by rw [h]; decide), if_pos hlast]

theorem toPublish_of_failed {metrics lastSuccess : RootMetrics} (h : metrics.available = false)
    (hlast : lastSuccess.available = false) : toPublish metrics lastSuccess = metrics := by
  unfold toPublish
  rw [if_neg (by rw [h]; decide), if_neg (by rw [hlast]; decide)]

/-- After a failure nothing fresh is published. -/
theorem toPublish_not_fresh {metrics : RootMetrics} (h : metrics.available = false)
    (lastSuccess : RootMetrics) :
    ¬ ((toPublish metrics lastSuccess).available = true ∧
      (toPublish metrics lastSuccess).stale = false) := by
  rintro ⟨havail, hstale⟩
  cases hlast : lastSuccess.available with
  | true =>
    rw [toPublish_of_stale h hlast] at hstale
    cases hstale
  | false =>
    rw [toPublish_of_failed h hlast, h] at havail
    cases havail

theorem applyRootMetrics_of_available {metrics : RootMetrics} (h : metrics.available = true)
    (now : ℕ) (snapshot : SystemSnapshot) :
    applyRootMetrics metrics now snapshot = applyAvailable metrics now snapshot := if_pos h

theorem applyRootMetrics_of_unavailable {metrics : RootMetrics} (h : metrics.available = false)
    (now : ℕ) (snapshot : SystemSnapshot) :
    applyRootMetrics metrics now snapshot = applyUnavailable metrics snapshot :=
  if_neg (by rw [h]; decide)

/-- The status of an unavailable round is never `Available`. -/
theorem applyUnavailable_thermal (metrics : RootMetrics) (snapshot : SystemSnapshot) :
    (applyUnavailable metrics snapshot).capabilities.thermalStatus.availability ≠ .available := by
  have hne (sampled permission parse : Prop) [Decidable sampled] [Decidable permission]
      [Decidable parse] :
      (if sampled then
        if permission then MetricAvailability.permissionDenied
        else if parse then .parseFailed else .unavailable
      else .waiting) ≠ .available := by
    split_ifs <;> decide
  exact hne _ _ _

theorem applyRootMetrics_thermal {metrics : RootMetrics} {now : ℕ} {snapshot : SystemSnapshot} :
    (applyRootMetrics metrics now snapshot).capabilities.thermalStatus.availability = .available ↔
      metrics.available = true ∧ metrics.stale = false := by
  cases havail : metrics.available with
  | false =>
    rw [applyRootMetrics_of_unavailable havail]
    exact iff_of_false (applyUnavailable_thermal metrics snapshot) (by simp)
  | true =>
    rw [applyRootMetrics_of_available havail]
    cases hstale : metrics.stale <;> simp [applyAvailable, metricStatus, hstale]

/-- The tasks have the status of the thermal sampler. -/
theorem applyRootMetrics_rootProcess (metrics : RootMetrics) (now : ℕ) (snapshot : SystemSnapshot) :
    (applyRootMetrics metrics now snapshot).capabilities.rootProcessStatus.availability =
      (applyRootMetrics metrics now snapshot).capabilities.thermalStatus.availability := by
  cases havail : metrics.available with
  | false => rw [applyRootMetrics_of_unavailable havail]; rfl
  | true => rw [applyRootMetrics_of_available havail]; rfl

/-! ## Truthful statuses -/

section Truth
variable (decode : Text → Option PowerPlist) (parseAmpData : Text → AmpData)

/-- A task command succeeded; the fallback runs only after an empty first answer. -/
def TaskSucceeded (commands : RootCommands) : Prop :=
  commands.ampResult.ok = true ∨
    (parseAmpData commands.ampResult.output).isEmpty = true ∧ commands.fallbackResult.ok = true

/-- The statuses claim no more than the commands of the round delivered. -/
structure TruthfulStatuses (commands : RootCommands) (snapshot : SystemSnapshot) : Prop where
  thermal : snapshot.capabilities.thermalStatus.availability = .available →
    ∃ plist, suppliedPlist decode commands = some plist ∧ plist.thermalPressure ≠ none
  rootProcess : snapshot.capabilities.rootProcessStatus.availability = .available →
    TaskSucceeded parseAmpData commands

variable {decode parseAmpData}

/-- After a round the thermal status is `Available` exactly when the round read a dictionary. -/
theorem thermal_available_iff (commands : RootCommands) (lastSuccess : RootMetrics) (now : ℕ)
    (snapshot : SystemSnapshot) :
    (applyRootMetrics (toPublish (collectRootMetrics decode parseAmpData commands) lastSuccess) now
        snapshot).capabilities.thermalStatus.availability = .available ↔
      (suppliedPlist decode commands).isSome = true := by
  let metrics := collectRootMetrics decode parseAmpData commands
  have hflags : metrics.flags = ⟨(suppliedPlist decode commands).isSome, false, true⟩ :=
    collectRootMetrics_flags commands
  have havail : metrics.available = (suppliedPlist decode commands).isSome :=
    congrArg RootFlags.available hflags
  rw [applyRootMetrics_thermal, ← havail]
  cases hmetrics : metrics.available with
  | true =>
    rw [toPublish_of_available hmetrics]
    exact iff_of_true ⟨hmetrics, congrArg RootFlags.stale hflags⟩ rfl
  | false => exact iff_of_false (toPublish_not_fresh hmetrics lastSuccess) (by decide)

/-- After any round, the statuses are truthful exactly when a dictionary came with a thermal
pressure and with a successful task command. -/
theorem root_statuses_truthful_iff (decode : Text → Option PowerPlist)
    (parseAmpData : Text → AmpData) (commands : RootCommands) (lastSuccess : RootMetrics) (now : ℕ)
    (snapshot : SystemSnapshot) :
    TruthfulStatuses decode parseAmpData commands
        (applyRootMetrics
          (toPublish (collectRootMetrics decode parseAmpData commands) lastSuccess) now snapshot) ↔
      ∀ plist, suppliedPlist decode commands = some plist →
        plist.thermalPressure ≠ none ∧ TaskSucceeded parseAmpData commands := by
  have hstatus : (applyRootMetrics
      (toPublish (collectRootMetrics decode parseAmpData commands) lastSuccess) now
        snapshot).capabilities.thermalStatus.availability = .available ↔
      (suppliedPlist decode commands).isSome = true :=
    thermal_available_iff commands lastSuccess now snapshot
  constructor
  · intro h plist hplist
    have hshown := hstatus.mpr (Option.isSome_of_eq_some hplist)
    obtain ⟨plist', hplist', hthermal⟩ := h.thermal hshown
    rw [hplist] at hplist'
    cases hplist'
    exact ⟨hthermal, h.rootProcess ((applyRootMetrics_rootProcess _ _ _).trans hshown)⟩
  · intro h
    refine ⟨fun hshown => ?_, fun hshown => ?_⟩
    · obtain ⟨plist, hplist⟩ := Option.isSome_iff_exists.mp (hstatus.mp hshown)
      exact ⟨plist, hplist, (h plist hplist).1⟩
    · rw [applyRootMetrics_rootProcess] at hshown
      obtain ⟨plist, hplist⟩ := Option.isSome_iff_exists.mp (hstatus.mp hshown)
      exact (h plist hplist).2

end Truth

/-! ## A round without either -/

/-- The root dictionary of this list is empty. -/
def emptyPlist : Text := str "<plist version=\"1.0\"><dict/></plist>"

def decodeEmpty (segment : Text) : Option PowerPlist :=
  if segment = emptyPlist then some {} else none

/-- The property list comes without a thermal pressure, and both task commands fail. -/
def failingTasks : RootCommands where
  sampleTime := 1000000000
  plistResult := { ok := true, exitCode := 0 }
  plistBytes := emptyPlist
  ampResult := { exitCode := 1, reason := str "command failed" }
  fallbackResult := { exitCode := 1, reason := str "command failed" }

/-- The snapshot after the first round of these. -/
def failingSnapshot : SystemSnapshot :=
  applyRootMetrics (toPublish (collectRootMetrics decodeEmpty (fun _ => {}) failingTasks) {})
    2000000000 {}

theorem root_statuses_not_truthful :
    ¬ TruthfulStatuses decodeEmpty (fun _ => {}) failingTasks failingSnapshot := by
  intro h
  have hplist : (suppliedPlist decodeEmpty failingTasks).isSome = true := by decide +kernel
  have hthermal : failingSnapshot.capabilities.thermalStatus.availability = .available :=
    (thermal_available_iff failingTasks {} 2000000000 {}).mpr hplist
  rcases h.rootProcess ((applyRootMetrics_rootProcess _ _ _).trans hthermal) with hok | ⟨-, hok⟩
  · cases hok
  · cases hok

end Mtop
