import Mtop.Output.SnapshotMode

/-! The output of `run_snapshot_mode` line by line: how many samples a run emits, what each line
reads as, and when the run ends. -/
namespace Mtop
open Cxx Rfc8259
set_option autoImplicit false

/-- Lines with their line breaks. -/
def unlines (lines : List Text) : Text := lines.flatMap (· ++ ['\n'])

theorem unlines_append (lines others : List Text) :
    unlines (lines ++ others) = unlines lines ++ unlines others :=
  List.flatMap_append

/-- Splitting at line breaks gives the lines back, and nothing after the last one. -/
theorem splitOn_unlines {lines : List Text} (h : ∀ line ∈ lines, '\n' ∉ line) :
    (unlines lines).splitOn '\n' = lines ++ [[]] := by
  have hjoin : unlines lines = ['\n'].intercalate (lines ++ [[]]) := by
    induction lines with
    | nil => rfl
    | cons line lines ih =>
      have hrest := ih fun l hl => h l (List.mem_cons_of_mem _ hl)
      cases lines with
      | nil => simp [unlines, List.intercalate]
      | cons next lines =>
        rw [show unlines (line :: next :: lines) = line ++ '\n' :: unlines (next :: lines) by
          simp [unlines], hrest]
        simp [List.intercalate]
  rw [hjoin]
  refine List.splitOn_intercalate '\n' (fun line hl => ?_) (by simp)
  rcases List.mem_append.mp hl with hl | hl
  · exact h line hl
  · rw [List.mem_singleton.mp hl]
    exact List.not_mem_nil

section Lines
variable (σ : StdSort) (options : RuntimeOptions) (config : AppConfig) (env : SnapshotEnv)

/-! ## The lines -/

/-- The clock is read once before the samples when a session is open. -/
def clockOffset : ℕ := if options.session then 1 else 0

/-- The `i`-th sample with its metadata. -/
def sampleAt (i : ℕ) : SystemSnapshot :=
  prepareSnapshotMetadata (env.samples i) (snapshotInterval options config)
    (env.clock (clockOffset options + i))

def sampleDoc (i : ℕ) : Doc :=
  snapshotDoc (sampleAt options config env i) (jsonOptions σ config (sampleAt options config env i))

/-- The document of the `i`-th snapshot line. -/
def lineDoc (i : ℕ) : Doc :=
  if options.session then sessionSnapshotDoc (sampleDoc σ options config env i)
  else sampleDoc σ options config env i

def snapshotLine (i : ℕ) : Text := (lineDoc σ options config env i).render escapeByte

def startLines : List Text :=
  if options.session then [sessionStartJson (sessionInfo options env)] else []

/-- The last line of a session with `k` snapshots. -/
def endLines (k : ℕ) : List Text :=
  if options.session then [sessionEndJson (sessionInfo options env) (env.clock (k + 1))] else []

/-- `k` samples have been emitted, each on its line. -/
structure Emitted (run : SnapshotRun) (k : ℕ) : Prop where
  out : run.out = unlines (startLines options env ++
    (List.range k).map (snapshotLine σ options config env))
  clockReads : run.clockReads = clockOffset options + k
  emitted : run.emitted = k

theorem emitted_startSession : Emitted σ options config env (startSession options env) 0 := by
  unfold startSession
  cases h : options.session with
  | true => exact ⟨by simp [startLines, h, unlines], by simp [clockOffset, h], rfl⟩
  | false => exact ⟨by simp [startLines, h, unlines], by simp [clockOffset, h], rfl⟩

variable {σ options config env}

theorem Emitted.readFlag {run : SnapshotRun} {k : ℕ} (h : Emitted σ options config env run k) :
    Emitted σ options config env (readFlag run) k := ⟨h.out, h.clockReads, h.emitted⟩

/-- One pass of the loop body writes the next line. -/
theorem Emitted.emitSample {run : SnapshotRun} {k : ℕ} (h : Emitted σ options config env run k) :
    Emitted σ options config env (emitSample σ options config env run) (k + 1) := by
  have hsnapshot : prepareSnapshotMetadata (env.samples run.emitted)
      (snapshotInterval options config) (env.clock run.clockReads) = sampleAt options config env k := by
    rw [sampleAt, h.emitted, h.clockReads]
  have hline : (if options.session then sessionSnapshotJson (snapshotToJson
        (sampleAt options config env k) (jsonOptions σ config (sampleAt options config env k)))
      else snapshotToJson (sampleAt options config env k)
        (jsonOptions σ config (sampleAt options config env k))) = snapshotLine σ options config env k := by
    rw [snapshotToJson_eq, snapshotLine, lineDoc, sampleDoc]
    cases options.session with
    | true => exact sessionSnapshotJson_obj _
    | false => rfl
  refine ⟨?_, ?_, ?_⟩
  · unfold Mtop.emitSample
    dsimp only
    rw [hsnapshot, hline, h.out, List.range_succ, List.map_append, ← List.append_assoc, unlines_append]
    simp [unlines]
  · change run.clockReads + 1 = _
    rw [h.clockReads, Nat.add_assoc]
  · exact congrArg (· + 1) h.emitted

/-! ## The loop -/

variable (options) in
theorem one_le_snapshotCount : 1 ≤ snapshotCount options := by
  unfold snapshotCount
  split
  · exact le_max_left _ _
  · exact le_refl _

/-- Before an iteration: a bounded run has samples left. -/
def Pending (options : RuntimeOptions) (k : ℕ) : Prop :=
  loopForever options = false → (k : ℤ) < snapshotCount options

theorem pending_zero : Pending options 0 := fun _ => by
  have := one_le_snapshotCount options
  omega

/-- The two break tests together: interrupted, or the last sample of a bounded run. -/
theorem break_iff {k : ℕ} (hp : Pending options k) :
    ((!options.snapshotLoop && options.count.isNone) = true ∨
      (!loopForever options && decide (((k + 1 : ℕ) : ℤ) ≥ snapshotCount options)) = true) ↔
      loopForever options = false ∧ ((k + 1 : ℕ) : ℤ) = snapshotCount options := by
  simp only [Bool.and_eq_true, Bool.not_eq_true', decide_eq_true_eq]
  constructor
  · rintro (⟨hloop, hnone⟩ | ⟨hf, hge⟩)
    · have hf : loopForever options = false := by simp [loopForever, hloop]
      have hcount : snapshotCount options = 1 := by
        unfold snapshotCount
        rw [Option.isNone_iff_eq_none.mp hnone]
      have := hp hf
      exact ⟨hf, by omega⟩
    · have := hp hf
      exact ⟨hf, by omega⟩
  · rintro ⟨hf, he⟩
    exact .inr ⟨hf, he.ge⟩

/-- The run after one more sample and its two readings of the flag. -/
def nextRun (σ : StdSort) (options : RuntimeOptions) (config : AppConfig) (env : SnapshotEnv)
    (run : SnapshotRun) : SnapshotRun :=
  readFlag (emitSample σ options config env (readFlag run))

theorem Emitted.nextRun {run : SnapshotRun} {k : ℕ} (h : Emitted σ options config env run k) :
    Emitted σ options config env (nextRun σ options config env run) (k + 1) :=
  h.readFlag.emitSample.readFlag

/-- Two tests with one outcome are one test. -/
theorem ite_ite_same {α : Type} (a b c : Bool) (x y : α) :
    (if (a || b) = true then x else if c = true then x else y) =
      if a = true ∨ b = true ∨ c = true then x else y := by
  cases a <;> cases b <;> cases c <;> simp

/-- What one iteration decides. -/
theorem snapshotLoop_succ {run : SnapshotRun} {k : ℕ} (h : Emitted σ options config env run k)
    (hp : Pending options k) (fuel : ℕ) :
    snapshotLoop σ options config env (fuel + 1) run =
      if env.interrupted run.flagReads = true then some (readFlag run)
      else if env.interrupted (run.flagReads + 1) = true ∨
          (loopForever options = false ∧ ((k + 1 : ℕ) : ℤ) = snapshotCount options) then
        some (nextRun σ options config env run)
      else snapshotLoop σ options config env fuel (nextRun σ options config env run) := by
  have hgo : (loopForever options || decide ((run.emitted : ℤ) < snapshotCount options)) = true := by
    rw [h.emitted]
    cases hf : loopForever options with
    | true => rfl
    | false => simpa using hp hf
  have hemitted : (emitSample σ options config env (readFlag run)).emitted = k + 1 :=
    h.readFlag.emitSample.emitted
  have hflag : (emitSample σ options config env (readFlag run)).flagReads = run.flagReads + 1 := rfl
  rw [snapshotLoop, hgo, Bool.and_true]
  cases hi : env.interrupted run.flagReads with
  | true => rfl
  | false =>
    simp only [Bool.not_false, ite_true, Bool.false_eq_true, ite_false]
    rw [hemitted, hflag]
    rw [ite_ite_same]
    exact if_congr (or_congr_right (break_iff hp)) rfl rfl

/-- Past an iteration that did not stop, a bounded run still has samples left. -/
theorem Pending.succ {k : ℕ} (hp : Pending options k)
    (h : ¬ (loopForever options = false ∧ ((k + 1 : ℕ) : ℤ) = snapshotCount options)) :
    Pending options (k + 1) := fun hf => by
  have := hp hf
  exact lt_of_le_of_ne (by omega) fun he => h ⟨hf, he⟩

/-- What a finished loop has emitted. -/
theorem snapshotLoop_emitted {fuel : ℕ} {run final : SnapshotRun} {k : ℕ}
    (h : Emitted σ options config env run k) (hp : Pending options k)
    (hl : snapshotLoop σ options config env fuel run = some final) :
    ∃ n, Emitted σ options config env final n ∧
      (loopForever options = false → (n : ℤ) ≤ snapshotCount options) ∧
      (env.interruptAt = none → loopForever options = false ∧ (n : ℤ) = snapshotCount options) := by
  induction fuel generalizing run k with
  | zero => cases hl
  | succ fuel ih =>
    have hnever : env.interruptAt = none → ∀ reading, env.interrupted reading = false :=
      fun he reading => by rw [SnapshotEnv.interrupted, he]
    rw [snapshotLoop_succ h hp] at hl
    split at hl
    · next hi =>
      cases hl
      refine ⟨k, h.readFlag, fun hf => (hp hf).le, fun he => ?_⟩
      rw [hnever he] at hi
      cases hi
    · split at hl
      · next hb =>
        cases hl
        refine ⟨k + 1, h.nextRun, fun hf => ?_, fun he => hb.resolve_left (by simp [hnever he])⟩
        have := hp hf
        omega
      · next hb => exact ih h.nextRun (hp.succ fun he => hb (.inr he)) hl

/-- A bounded run returns after as many iterations as it has samples left. -/
theorem snapshotLoop_bounded {fuel : ℕ} {run : SnapshotRun} {k : ℕ}
    (h : Emitted σ options config env run k) (hp : Pending options k)
    (hf : loopForever options = false) (hfuel : snapshotCount options ≤ (k + fuel : ℕ)) :
    (snapshotLoop σ options config env fuel run).isSome = true := by
  induction fuel generalizing run k with
  | zero =>
    have := hp hf
    omega
  | succ fuel ih =>
    rw [snapshotLoop_succ h hp]
    split
    · rfl
    · split
      · rfl
      · next hb => exact ih h.nextRun (hp.succ fun he => hb (.inr he)) (by omega)

/-- An interrupted run returns no later than the iteration that reads the flag. -/
theorem snapshotLoop_interrupted {fuel : ℕ} {run : SnapshotRun} {k first : ℕ}
    (h : Emitted σ options config env run k) (hp : Pending options k)
    (hi : env.interruptAt = some first) (hfuel : first < run.flagReads + fuel) :
    (snapshotLoop σ options config env (fuel + 1) run).isSome = true := by
  have hset : ∀ reading, first ≤ reading → env.interrupted reading = true := fun reading hle => by
    rw [SnapshotEnv.interrupted, hi]
    exact decide_eq_true hle
  induction fuel generalizing run k with
  | zero =>
    rw [snapshotLoop_succ h hp, if_pos (hset _ (by omega))]
    rfl
  | succ fuel ih =>
    rw [snapshotLoop_succ h hp]
    split
    · rfl
    · split
      · rfl
      · next hb =>
        refine ih h.nextRun (hp.succ fun he => hb (.inr he)) ?_
        change first < run.flagReads + 2 + fuel
        omega

/-! ## The whole run -/

/-- What was written is the start line, `k` snapshot lines and the end line of a session, or the
`k` snapshot lines alone; each reads as the document it stands for. -/
structure Framed (σ : StdSort) (options : RuntimeOptions) (config : AppConfig) (env : SnapshotEnv)
    (final : SnapshotRun) (code : ℤ) (k : ℕ) : Prop where
  lines : final.out.splitOn '\n' = startLines options env ++
    (List.range k).map (snapshotLine σ options config env) ++ endLines options env k ++ [[]]
  start : ∀ line ∈ startLines options env,
    parse line = some (sessionStartDoc (sessionInfo options env)).value
  snapshots : ∀ i, parse (snapshotLine σ options config env i) =
    some (lineDoc σ options config env i).value
  finish : ∀ line ∈ endLines options env k,
    parse line = some (sessionEndDoc (sessionInfo options env) (env.clock (k + 1))).value
  bounded : loopForever options = false → (k : ℤ) ≤ snapshotCount options
  complete : env.interruptAt = none → loopForever options = false ∧ (k : ℤ) = snapshotCount options
  code : code = if env.interrupted final.flagReads then 130 else 0

theorem newline_notMem_startLines : ∀ line ∈ startLines options env, '\n' ∉ line := by
  intro line hl
  unfold startLines at hl
  split at hl
  · rw [List.mem_singleton.mp hl, sessionStartJson_eq]
    exact Doc.newline_notMem_render escapeByte_escaping _
  · cases hl

theorem newline_notMem_endLines (k : ℕ) : ∀ line ∈ endLines options env k, '\n' ∉ line := by
  intro line hl
  unfold endLines at hl
  split at hl
  · rw [List.mem_singleton.mp hl, sessionEndJson_eq]
    exact Doc.newline_notMem_render escapeByte_escaping _
  · cases hl

/-- The session's end line follows the lines of the loop. -/
theorem Emitted.endSession_out {run : SnapshotRun} {k : ℕ} (h : Emitted σ options config env run k) :
    (endSession options env run).out = unlines (startLines options env ++
      (List.range k).map (snapshotLine σ options config env) ++ endLines options env k) := by
  have hout := h.out
  have hclock := h.clockReads
  unfold endSession endLines
  cases hs : options.session with
  | false => simpa using hout
  | true =>
    rw [clockOffset, hs, if_pos rfl, Nat.add_comm] at hclock
    rw [if_pos rfl, if_pos rfl, unlines_append, ← hout, hclock]
    simp [unlines]

theorem Emitted.framed {run : SnapshotRun} {k : ℕ} (h : Emitted σ options config env run k)
    (hb : loopForever options = false → (k : ℤ) ≤ snapshotCount options)
    (hc : env.interruptAt = none → loopForever options = false ∧ (k : ℤ) = snapshotCount options) :
    Framed σ options config env (endSession options env run)
      (if env.interrupted (endSession options env run).flagReads then 130 else 0) k where
  lines := by
    rw [h.endSession_out]
    refine splitOn_unlines fun line hl => ?_
    rcases List.mem_append.mp hl with hl | hl
    · rcases List.mem_append.mp hl with hl | hl
      · exact newline_notMem_startLines line hl
      · obtain ⟨i, -, rfl⟩ := List.mem_map.mp hl
        exact Doc.newline_notMem_render escapeByte_escaping _
    · exact newline_notMem_endLines k line hl
  start line hl := by
    unfold startLines at hl
    split at hl
    · rw [List.mem_singleton.mp hl, sessionStartJson_eq]
      exact parse_render escapeByte_escaping _
    · cases hl
  snapshots i := parse_render escapeByte_escaping _
  finish line hl := by
    unfold endLines at hl
    split at hl
    · rw [List.mem_singleton.mp hl, sessionEndJson_eq]
      exact parse_render escapeByte_escaping _
    · cases hl
  bounded := hb
  complete := hc
  code := rfl

/-- Every finished JSON run is framed, and every run that is bounded or interrupted finishes. -/
theorem runSnapshotMode_framed (hformat : options.snapshotFormat = str "json")
    (hopens : env.outputOpens = true) :
    (∀ fuel final code, runSnapshotMode σ options config env fuel = some (final, code) →
      ∃ k, Framed σ options config env final code k) ∧
    (loopForever options = false ∨ env.interruptAt ≠ none →
      ∃ fuel, (runSnapshotMode σ options config env fuel).isSome = true) := by
  have hrun : ∀ fuel, runSnapshotMode σ options config env fuel =
      (snapshotLoop σ options config env fuel (startSession options env)).map fun run =>
        (endSession options env run,
          if env.interrupted (endSession options env run).flagReads then 130 else 0) := fun fuel => by
    rw [runSnapshotMode, if_neg (by simp [hformat]), if_neg (by simp [hopens])]
  have hstart := emitted_startSession σ options config env
  constructor
  · intro fuel final code h
    rw [hrun] at h
    obtain ⟨run, hl, he⟩ := Option.map_eq_some_iff.mp h
    cases he
    obtain ⟨k, hk, hb, hc⟩ := snapshotLoop_emitted hstart pending_zero hl
    exact ⟨k, hk.framed hb hc⟩
  · rintro (hf | hi)
    · refine ⟨(snapshotCount options).toNat, ?_⟩
      rw [hrun, Option.isSome_map]
      exact snapshotLoop_bounded hstart pending_zero hf (by omega)
    · obtain ⟨first, hfirst⟩ := Option.ne_none_iff_exists'.mp hi
      refine ⟨first + 1 + 1, ?_⟩
      rw [hrun, Option.isSome_map]
      exact snapshotLoop_interrupted hstart pending_zero hfirst (by omega)

end Lines

/-- A session of two samples that nobody interrupts. -/
def quietSession : RuntimeOptions :=
  { session := true, snapshotFormat := str "json", count := some 2, sessionLabel := str "bench" }

def quietEnv : SnapshotEnv :=
  { samples := fun _ => {}, clock := UInt64.ofNat, interruptAt := none, outputOpens := true }

theorem runSnapshotMode_framed_quiet :
    (∀ fuel final code,
      runSnapshotMode .insertion quietSession {} quietEnv fuel = some (final, code) →
        ∃ k, Framed .insertion quietSession {} quietEnv final code k) ∧
      (loopForever quietSession = false ∨ quietEnv.interruptAt ≠ none →
        ∃ fuel, (runSnapshotMode .insertion quietSession {} quietEnv fuel).isSome = true) :=
  runSnapshotMode_framed rfl rfl

end Mtop
