import Mtop.Library.Utf8
import Mtop.Output.SnapshotDoc

/-! The bytes that `json_escape` and `snapshot_to_json` write, and when they are well-formed UTF-8. -/
namespace Mtop
open Cxx Rfc8259
set_option autoImplicit false

/-! ## Escaped bytes -/

theorem escapeByte_ascii : AsciiEscaping escapeByte where
  kept ch hch := by
    rcases escapeByte_cases ch with ⟨c, -, -, hlt, -⟩ | ⟨-, hlt⟩ | ⟨hescape, -⟩
    · omega
    · omega
    · exact hescape
  written ch hch := by
    rcases escapeByte_cases ch with ⟨c, hescape, -, -, -, hlt⟩ | ⟨hescape, -⟩ | ⟨hescape, -⟩
    · rw [hescape]
      exact ⟨isAscii_cons.mpr ⟨by decide, isAscii_cons.mpr ⟨hlt, rfl⟩⟩, List.cons_ne_nil _ _⟩
    · rw [hescape]
      refine ⟨isAscii_cons.mpr ⟨by decide, isAscii_cons.mpr ⟨by decide, ?_⟩⟩, List.cons_ne_nil _ _⟩
      exact List.all_eq_true.mpr fun c hc => decide_eq_true (hexPadded_plain 4 ch.toNat c hc).2.1
    · rw [hescape]
      exact ⟨isAscii_cons.mpr ⟨hch, rfl⟩, List.cons_ne_nil _ _⟩

/-! ## Quotes -/

/-- No quote stands outside an escape, and no escape is cut off: a backslash takes the byte after
it. -/
def noBareQuote : Text → Bool
  | [] => true
  | c :: text =>
    if c = '\\' then
      match text with
      | [] => false
      | _ :: text => noBareQuote text
    else c ≠ '"' && noBareQuote text

theorem noBareQuote_plain {text : Text} (h : ∀ c ∈ text, c ≠ '"' ∧ c ≠ '\\') (rest : Text) :
    noBareQuote (text ++ rest) = noBareQuote rest := by
  induction text with
  | nil => rfl
  | cons c text ih =>
    obtain ⟨⟨hquote, hslash⟩, htext⟩ := List.forall_mem_cons.mp h
    rw [List.cons_append, noBareQuote.eq_def]
    dsimp only
    rw [if_neg hslash, decide_eq_true hquote, Bool.true_and, ih htext]

theorem noBareQuote_escapeByte (ch : Char) (rest : Text) :
    noBareQuote (escapeByte ch ++ rest) = noBareQuote rest := by
  rcases escapeByte_cases ch with ⟨c, hescape, -⟩ | ⟨hescape, -⟩ | ⟨hescape, -, hquote, hslash⟩
  · rw [hescape]
    rfl
  · rw [hescape]
    exact noBareQuote_plain (fun c hc => (hexPadded_plain 4 ch.toNat c hc).2.2) rest
  · rw [hescape]
    exact noBareQuote_plain (fun c hc => List.mem_singleton.mp hc ▸ ⟨hquote, hslash⟩) rest

/-! ## `json_escape` -/

section Escape
variable (value : Text)

theorem jsonEscape_printable : ∀ c ∈ jsonEscape value, 0x20 ≤ c.toNat := by
  intro c hc
  obtain ⟨ch, -, hch⟩ := List.mem_flatMap.mp hc
  exact escapeByte_printable ch c hch

theorem jsonEscape_noBareQuote : noBareQuote (jsonEscape value) = true := by
  induction value with
  | nil => rfl
  | cons ch value ih => exact (noBareQuote_escapeByte ch _).trans ih

/-- Escaping neither repairs nor breaks UTF-8. -/
theorem jsonEscape_wellFormed : WellFormed (jsonEscape value) ↔ WellFormed value :=
  wellFormed_flatMap escapeByte_ascii [] value

end Escape

/-! ## The strings of a snapshot

What the samplers and the models fill in, section by section, as opposed to keys and labels. -/

def statusTexts (status : MetricStatus) : List Text := [status.reason]

def hostTexts (snapshot : SystemSnapshot) : List Text := [snapshot.macosVersion, snapshot.socName]

def capabilityTexts (capabilities : CapabilitySnapshot) : List Text :=
  [capabilities.gpuTotalStatus, capabilities.gpuPerProcessStatus, capabilities.thermalStatus,
    capabilities.aneStatus, capabilities.rootProcessStatus].flatMap statusTexts

def coreTexts (core : CpuCoreSnapshot) : List Text := [core.clusterType, core.label]

def clusterTexts (cluster : CpuClusterSnapshot) : List Text := [cluster.name, [cluster.label]]

def cpuTexts (snapshot : SystemSnapshot) : List Text :=
  snapshot.cpuCores.flatMap coreTexts ++ snapshot.cpuClusters.flatMap clusterTexts

def aneTexts (snapshot : SystemSnapshot) : List Text :=
  snapshot.ane :: statusTexts snapshot.capabilities.aneStatus

def ioTexts (snapshot : SystemSnapshot) : List Text :=
  [snapshot.diskIo.status, snapshot.pagingIo.status, snapshot.networkIo.status].flatMap statusTexts

def processTexts (process : ProcessSnapshot) : List Text :=
  [process.name, process.command, process.user, [process.state], process.coreMix, process.io,
    process.power]

def processRefTexts (process : WorkloadProcessRef) : List Text := [process.command]

def workloadTexts (workload : WorkloadSnapshot) : List Text :=
  [workload.id, workload.name, workload.modelHint, workload.coreMix, workload.io, workload.power] ++
    statusTexts workload.detectionStatus ++ workload.processes.flatMap processRefTexts

/-- The strings that only the second schema version has. -/
def modelTexts (options : SnapshotJsonOptions) : List Text :=
  if options.includeV2Models then
    options.workloads.flatMap workloadTexts ++ [options.memoryRisk.reason]
  else []

def snapshotTexts (snapshot : SystemSnapshot) (options : SnapshotJsonOptions) : List Text :=
  hostTexts snapshot ++ capabilityTexts snapshot.capabilities ++ cpuTexts snapshot ++
    statusTexts snapshot.memoryPressureStatus ++
    statusTexts snapshot.capabilities.gpuTotalStatus ++ aneTexts snapshot ++ ioTexts snapshot ++
    snapshot.processes.flatMap processTexts ++ modelTexts options

/-! ## Labels -/

theorem metricAvailabilityLabel_ascii (availability : MetricAvailability) :
    isAscii (metricAvailabilityLabel availability) = true := by
  cases availability <;> simp [metricAvailabilityLabel, isAscii]

theorem memoryPressureLabel_ascii (level : MemoryPressureLevel) :
    isAscii (memoryPressureLabel level) = true := by
  cases level <;> simp [memoryPressureLabel, isAscii]

theorem memoryRiskName_ascii (level : MemoryRiskLevel) : isAscii (memoryRiskName level) = true := by
  cases level <;> simp [memoryRiskName, isAscii]

theorem viewProfileName_ascii (profile : ViewProfile) :
    isAscii (viewProfileName profile) = true := by
  cases profile <;> simp [viewProfileName, isAscii]

theorem workloadRoleName_ascii (role : WorkloadRole) : isAscii (workloadRoleName role) = true := by
  cases role <;> simp [workloadRoleName, isAscii]

theorem workloadKindName_ascii (kind : WorkloadKind) : isAscii (workloadKindName kind) = true := by
  cases kind <;> simp [workloadKindName, isAscii]

theorem workloadKindLabel_ascii (kind : WorkloadKind) :
    isAscii (workloadKindLabel kind) = true := by
  cases kind <;> simp [workloadKindLabel, isAscii]

/-! ## The documents -/

/-- Whether a document is well formed depends on these strings alone. -/
abbrev DependsOn (d : Doc) (texts : List Text) : Prop :=
  WellFormed (d.render escapeByte) ↔ ∀ text ∈ texts, WellFormed text

@[simp] theorem wellFormed_literal {literal : String}
    (h : literal.toList.all (fun c => c.toNat < 0x80) = true) : WellFormed (str literal) := by
  rw [str_eq]
  exact wellFormed_of_isAscii h

@[simp] theorem wellFormed_member (s : Text) :
    WellFormed (Doc.render escapeByte (.str s)) ↔ WellFormed s :=
  wellFormed_str escapeByte_ascii s

@[simp] theorem wellFormed_fields (ms : List (Text × Doc)) :
    WellFormed (Doc.render escapeByte (.obj ms)) ↔
      ∀ m ∈ ms, WellFormed m.1 ∧ WellFormed (m.2.render escapeByte) :=
  wellFormed_obj escapeByte_ascii ms

@[simp] theorem wellFormed_uint (n : UInt64) : WellFormed ((uintDoc n).render escapeByte) :=
  wellFormed_num _

@[simp] theorem wellFormed_int (n : ℤ) : WellFormed ((intDoc n).render escapeByte) := wellFormed_num _

@[simp] theorem wellFormed_double (d : Double) : WellFormed ((doubleDoc d).render escapeByte) :=
  wellFormed_num _

/-- A loop that writes one value for each item. -/
theorem dependsOn_map {α : Type} {doc : α → Doc} {texts : α → List Text}
    (h : ∀ a, DependsOn (doc a) (texts a)) (items : List α) :
    DependsOn (.arr (items.map doc)) (items.flatMap texts) := by
  unfold DependsOn
  rw [wellFormed_arr, List.forall_mem_map, List.forall_mem_flatMap]
  exact forall₂_congr fun a _ => h a

theorem statusDoc_dependsOn (status : MetricStatus) :
    DependsOn (statusDoc status) (statusTexts status) := by
  have hlabel := wellFormed_of_isAscii (metricAvailabilityLabel_ascii status.availability)
  simp [DependsOn, statusDoc, statusTexts, hlabel, -str_eq]

theorem coreDoc_dependsOn (core : CpuCoreSnapshot) : DependsOn (coreDoc core) (coreTexts core) := by
  simp [DependsOn, coreDoc, coreTexts, -str_eq]

theorem clusterDoc_dependsOn (cluster : CpuClusterSnapshot) :
    DependsOn (clusterDoc cluster) (clusterTexts cluster) := by
  simp [DependsOn, clusterDoc, clusterTexts, wellFormed_bool, -str_eq]

theorem processDoc_dependsOn (process : ProcessSnapshot) :
    DependsOn (processDoc process) (processTexts process) := by
  simp [DependsOn, processDoc, processTexts, wellFormed_bool, -str_eq]

theorem processRefDoc_dependsOn (process : WorkloadProcessRef) :
    DependsOn (processRefDoc process) (processRefTexts process) := by
  have hrole := wellFormed_of_isAscii (workloadRoleName_ascii process.role)
  simp [DependsOn, processRefDoc, processRefTexts, hrole, -str_eq]

theorem workloadDoc_dependsOn (workload : WorkloadSnapshot) :
    DependsOn (workloadDoc workload) (workloadTexts workload) := by
  have hname := wellFormed_of_isAscii (workloadKindName_ascii workload.kind)
  have hlabel := wellFormed_of_isAscii (workloadKindLabel_ascii workload.kind)
  have hstatus := statusDoc_dependsOn workload.detectionStatus
  have hprocesses := dependsOn_map processRefDoc_dependsOn workload.processes
  simp [DependsOn, workloadDoc, workloadTexts, wellFormed_bool, hname, hlabel,
    hstatus, hprocesses, or_imp, forall_and, and_assoc, -str_eq]

theorem memoryRiskDoc_dependsOn (risk : MemoryRiskSnapshot) :
    DependsOn (memoryRiskDoc risk) [risk.reason] := by
  have hname := wellFormed_of_isAscii (memoryRiskName_ascii risk.level)
  simp [DependsOn, memoryRiskDoc, hname, -str_eq]

section Snapshot
variable (snapshot : SystemSnapshot)

theorem hostDoc_dependsOn : DependsOn (hostDoc snapshot) (hostTexts snapshot) := by
  simp [DependsOn, hostDoc, hostTexts, -str_eq]

theorem capabilitiesDoc_dependsOn (capabilities : CapabilitySnapshot) :
    DependsOn (capabilitiesDoc capabilities) (capabilityTexts capabilities) := by
  simp [DependsOn, capabilitiesDoc, capabilityTexts, wellFormed_bool,
    statusDoc_dependsOn, statusTexts, -str_eq]

theorem cpuDoc_dependsOn : DependsOn (cpuDoc snapshot) (cpuTexts snapshot) := by
  have hcores := dependsOn_map coreDoc_dependsOn snapshot.cpuCores
  have hclusters := dependsOn_map clusterDoc_dependsOn snapshot.cpuClusters
  simp [DependsOn, cpuDoc, cpuTexts, hcores, hclusters, or_imp, forall_and,
    -str_eq]

theorem memoryDoc_dependsOn :
    DependsOn (memoryDoc snapshot) (statusTexts snapshot.memoryPressureStatus) := by
  have hlevel := wellFormed_of_isAscii (memoryPressureLabel_ascii snapshot.memoryPressure)
  simp [DependsOn, memoryDoc, hlevel, statusDoc_dependsOn, -str_eq]

theorem gpuDoc_dependsOn :
    DependsOn (gpuDoc snapshot) (statusTexts snapshot.capabilities.gpuTotalStatus) := by
  simp [DependsOn, gpuDoc, statusDoc_dependsOn, wellFormed_arr, -str_eq]

theorem aneDoc_dependsOn : DependsOn (aneDoc snapshot) (aneTexts snapshot) := by
  simp [DependsOn, aneDoc, aneTexts, statusDoc_dependsOn, -str_eq]

theorem ioDoc_dependsOn : DependsOn (ioDoc snapshot) (ioTexts snapshot) := by
  simp [DependsOn, ioDoc, ioTexts, statusDoc_dependsOn, statusTexts, -str_eq]

end Snapshot

/-- The text of a snapshot is UTF-8 exactly when all its strings are. -/
theorem snapshotToJson_wellFormed (snapshot : SystemSnapshot) (options : SnapshotJsonOptions) :
    WellFormed (snapshotToJson snapshot options) ↔
      ∀ text ∈ snapshotTexts snapshot options, WellFormed text := by
  have hprofile := wellFormed_of_isAscii (viewProfileName_ascii options.viewProfile)
  have hprocesses := dependsOn_map processDoc_dependsOn snapshot.processes
  have hworkloads := dependsOn_map workloadDoc_dependsOn options.workloads
  rw [snapshotToJson_eq]
  unfold snapshotDoc modelMembers snapshotTexts modelTexts
  cases options.includeV2Models with
  | false =>
    simp [hostDoc_dependsOn, capabilitiesDoc_dependsOn, cpuDoc_dependsOn, memoryDoc_dependsOn, gpuDoc_dependsOn,
      aneDoc_dependsOn, ioDoc_dependsOn, hprocesses, or_imp, forall_and, and_assoc, -str_eq]
  | true =>
    simp [hostDoc_dependsOn, capabilitiesDoc_dependsOn, cpuDoc_dependsOn, memoryDoc_dependsOn, gpuDoc_dependsOn,
      aneDoc_dependsOn, ioDoc_dependsOn, hprocesses, hworkloads, hprofile, memoryRiskDoc_dependsOn, or_imp,
      forall_and, and_assoc, -str_eq]

theorem snapshotToJson_printable (snapshot : SystemSnapshot) (options : SnapshotJsonOptions) :
    ∀ c ∈ snapshotToJson snapshot options, 0x20 ≤ c.toNat := by
  have hall : marks.all (fun c => 0x20 ≤ c.toNat) = true := by simp [marks]
  have hmarks : ∀ c ∈ marks, 0x20 ≤ c.toNat := by
    simpa only [List.all_eq_true, decide_eq_true_eq] using hall
  rw [snapshotToJson_eq]
  refine Doc.forall_mem_render hmarks escapeByte_printable (fun n c hc => ?_) _
  have := isNumberChar_range (n.text_chars c hc)
  omega

/-! ## What a reader makes of the bytes -/

/-- Every string is escaped to bytes from `0x20` on without a bare quote, every snapshot is written
in such bytes and has the grammar of a JSON text; a reader that asks for UTF-8 accepts it exactly
when the strings of the snapshot are UTF-8, which the escaping leaves as they are. -/
theorem snapshot_utf8_iff (value : Text) (snapshot : SystemSnapshot)
    (options : SnapshotJsonOptions) :
    ((∀ c ∈ jsonEscape value, 0x20 ≤ c.toNat) ∧ noBareQuote (jsonEscape value) = true ∧
      (WellFormed (jsonEscape value) ↔ WellFormed value)) ∧
    (∀ c ∈ snapshotToJson snapshot options, 0x20 ≤ c.toNat) ∧
      ((WellFormed (snapshotToJson snapshot options) ∧
        ∃ tree, parse (snapshotToJson snapshot options) = some tree) ↔
          ∀ text ∈ snapshotTexts snapshot options, WellFormed text) := by
  have htree : parse (snapshotToJson snapshot options) = some (snapshotDoc snapshot options).value := by
    rw [snapshotToJson_eq]
    exact parse_render escapeByte_escaping _
  refine ⟨⟨jsonEscape_printable value, jsonEscape_noBareQuote value, jsonEscape_wellFormed value⟩,
    snapshotToJson_printable snapshot options, ?_⟩
  exact (and_iff_left ⟨_, htree⟩).trans (snapshotToJson_wellFormed snapshot options)

/-- A process whose name, three bytes to a character, was cut after the second byte. -/
def cutNameSnapshot : SystemSnapshot :=
  { processes := [{ pid := 1, name := [Char.ofNat 0xE3, Char.ofNat 0x81] }] }

theorem cut_name_is_no_utf8 :
    ¬ WellFormed (jsonEscape [Char.ofNat 0xE3, Char.ofNat 0x81]) ∧
      ¬ WellFormed (snapshotToJson cutNameSnapshot {}) := by
  have hname : ¬ WellFormed [Char.ofNat 0xE3, Char.ofNat 0x81] := fun h =>
    absurd (h.two_le_of_lead (by decide)) (by decide)
  refine ⟨fun h => hname ((jsonEscape_wellFormed _).mp h), fun h => hname ?_⟩
  refine (snapshotToJson_wellFormed cutNameSnapshot {}).mp h _ ?_
  decide +kernel

end Mtop
