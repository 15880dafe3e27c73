import Mtop.Platform.RateTruth
import Mathlib.Algebra.BigOperators.Group.Finset.Basic

/-! The disk and network rates against the bytes that the devices transfer. A sample sees only the
devices in view, and only their sum is remembered: a device that comes into view brings along
everything it has counted before. -/
namespace Mtop
open Cxx Machine
set_option autoImplicit false

/-! ## Devices -/

inductive DeviceKind where
  | disk | network
  deriving DecidableEq

def DeviceKind.source : DeviceKind → Source
  | disk => .disk
  | network => .network

/-- The counters of the devices in view, as they are listed. -/
def DeviceKind.seen (kind : DeviceKind) (input : SampleInput) : List Traffic :=
  match kind with
  | disk =>
    match input.drivers with
    | .found drivers =>
      drivers.filterMap fun stats =>
        stats.map fun stats => ⟨stats.bytesRead.getD 0, stats.bytesWritten.getD 0⟩
    | _ => []
  | network =>
    (input.interfaces.getD []).filterMap fun current =>
      if current.counted then current.data else none

/-- The bytes that every device has counted, and the devices in view. -/
structure DeviceView (ι : Type) where
  counted : ι → Traffic
  inView : List ι

section Totals
variable {ι : Type} (devices : Finset ι) (side : Traffic → UInt64)

/-- The bytes that all the devices transferred between two samples. -/
def transferred (before now : ι → Traffic) : ℤ :=
  ∑ d ∈ devices, (((side (now d)).toNat : ℤ) - ((side (before d)).toNat : ℤ))

/-- The rate stands for no more than the bytes transferred, up to its rounding. -/
def BoundedRate (before now : ι → Traffic) (seconds : ℚ) (rate : UInt64) : Prop :=
  (rate.toNat : ℚ) * seconds ≤ transferred devices side before now + seconds / 2

end Totals

/-- A computed rate stands for no more than its bytes, up to the rounding; wrapping makes it less. -/
theorem ratePerSecond_le {bytes : ℤ} {seconds : ℚ} (hbytes : 0 ≤ bytes) (hseconds : 0 < seconds) :
    ((ratePerSecond bytes seconds).toNat : ℚ) * seconds ≤ bytes + seconds / 2 := by
  have hrate : 0 ≤ (bytes : ℚ) / seconds := div_nonneg (Int.cast_nonneg hbytes) hseconds.le
  have hround := llround_nonneg hrate
  have hwrap : ((ratePerSecond bytes seconds).toNat : ℤ) ≤ llround ((bytes : ℚ) / seconds) := by
    unfold ratePerSecond UInt64.ofInt
    rw [UInt64.toNat_ofNat']
    omega
  have hcast : (((ratePerSecond bytes seconds).toNat : ℤ) : ℚ) ≤ (bytes : ℚ) / seconds + 1 / 2 := by
    refine (Int.cast_le.mpr hwrap).trans ?_
    rw [llround_of_nonneg hrate]
    exact Int.floor_le _
  calc ((ratePerSecond bytes seconds).toNat : ℚ) * seconds
      ≤ ((bytes : ℚ) / seconds + 1 / 2) * seconds :=
        mul_le_mul_of_nonneg_right (by exact_mod_cast hcast) hseconds.le
    _ = bytes + seconds / 2 := by
        rw [add_mul, div_mul_cancel₀ _ hseconds.ne', one_div_mul_eq_div]

/-! ## Runs -/

/-- A sample: what the background thread has published by then, what the kernel answers, and the
devices it answers about. -/
structure DeviceSample (ι : Type) where
  shared : RootMetrics
  input : SampleInput
  view : DeviceKind → DeviceView ι

/-- The sampler, and the devices at its last sample. -/
structure DeviceRun (ι : Type) where
  sampler : Sampler
  before : DeviceKind → DeviceView ι

section Runs
variable {ι : Type} (σ : StdSort) (devices : DeviceKind → Finset ι)

def deviceStep (m : DeviceSample ι) (s : DeviceRun ι) : Option (DeviceRun ι) :=
  some ⟨sample σ m.shared m.input s.sampler, m.view⟩

def DeviceRun.meter (s : DeviceRun ι) (kind : DeviceKind) : Meter := kind.source.meter s.sampler

/-- The time since the sample before. -/
def DeviceRun.elapsed (s : DeviceRun ι) (m : DeviceSample ι) (kind : DeviceKind) : ℚ :=
  elapsedSeconds (s.meter kind).lastTime (kind.source.time m.input)

/-- The listing shows the devices in view, each once, and no counter has gone back. -/
structure Grows (s : DeviceRun ι) (m : DeviceSample ι) : Prop where
  shown (kind : DeviceKind) : kind.seen m.input = (m.view kind).inView.map (m.view kind).counted
  nodup (kind : DeviceKind) : (m.view kind).inView.Nodup
  known (kind : DeviceKind) : ∀ d ∈ (m.view kind).inView, d ∈ devices kind
  inBytes (kind : DeviceKind) : ∀ d ∈ devices kind,
    ((s.before kind).counted d).inBytes ≤ ((m.view kind).counted d).inBytes
  outBytes (kind : DeviceKind) : ∀ d ∈ devices kind,
    ((s.before kind).counted d).outBytes ≤ ((m.view kind).counted d).outBytes

/-- Rates published as available stand for no more than the devices transferred. -/
def BoundedRates (s : DeviceRun ι) (m : DeviceSample ι) : Prop :=
  ∀ kind : DeviceKind,
    let snapshot := (sample σ m.shared m.input s.sampler).snapshot
    kind.source.available snapshot = true →
      BoundedRate (devices kind) (·.inBytes) (s.before kind).counted (m.view kind).counted
          (s.elapsed m kind) (kind.source.published snapshot).inBytes ∧
        BoundedRate (devices kind) (·.outBytes) (s.before kind).counted (m.view kind).counted
          (s.elapsed m kind) (kind.source.published snapshot).outBytes

variable {σ devices} {s : DeviceRun ι} {m : DeviceSample ι} {kind : DeviceKind}
  {counters remembered : Traffic}

theorem DeviceKind.flag_eq_isSome (kind : DeviceKind) (rates : Option Traffic) :
    kind.source.flag rates = rates.isSome := by
  cases kind <;> rfl

theorem computes_of_available
    (h : kind.source.available (sample σ m.shared m.input s.sampler).snapshot = true) :
    ∃ counters remembered, kind.source.Computes m.input (s.meter kind) counters remembered := by
  rw [Source.sample_available, kind.flag_eq_isSome] at h
  obtain ⟨rates, hrates⟩ := Option.isSome_iff_exists.mp h
  exact Source.computes_of_newRates hrates

theorem available_of_computes
    (h : kind.source.Computes m.input (s.meter kind) counters remembered) :
    kind.source.available (sample σ m.shared m.input s.sampler).snapshot = true := by
  rw [Source.sample_available, kind.flag_eq_isSome]
  exact Option.isSome_of_eq_some h.newRates

theorem elapsed_of_computes (h : kind.source.Computes m.input (s.meter kind) counters remembered) :
    0 < s.elapsed m kind ∧ s.elapsed m kind =
      ((kind.source.time m.input : ℚ) - ((s.meter kind).lastTime : ℚ)) / 1000000000 := by
  refine ⟨elapsedSeconds_pos_iff.mpr ⟨h.clockSet, h.clockMoved⟩, ?_⟩
  exact if_neg (Nat.pos_iff_ne_zero.mp h.clockSet)

theorem published_of_computes
    (h : kind.source.Computes m.input (s.meter kind) counters remembered) :
    kind.source.published (sample σ m.shared m.input s.sampler).snapshot =
      ⟨ratePerSecond (counters.inBytes.toNat - remembered.inBytes.toNat) (s.elapsed m kind),
        ratePerSecond (counters.outBytes.toNat - remembered.outBytes.toNat)
          (s.elapsed m kind)⟩ := by
  rw [Source.sample_published, (elapsed_of_computes h).2]
  exact congrArg (fun rates => Option.getD rates _) h.newRates

end Runs

/-! ## A late arrival -/

/-- Interfaces at the given second, some of them up. -/
def linkSample (second : ℕ) (counted : String → Traffic) (up : List String) :
    DeviceSample String where
  shared := {}
  input :=
    { ioTime := second * 1000000000
      interfaces := some (up.map fun name =>
        { name := some (str name), data := some (counted name), up := true, loopback := false }) }
  view
    | .disk => ⟨fun _ => {}, []⟩
    | .network => ⟨counted, up⟩

def linkDevices : DeviceKind → Finset String
  | .disk => ∅
  | .network => {"en0", "en1"}

/-- `en1` is down at the first sample and has counted 1000 bytes long before. -/
def oldBytes (name : String) : Traffic := if name = "en1" then ⟨1000, 0⟩ else {}

def linkStart : DeviceRun String := ⟨darwinSampler false, (linkSample 0 oldBytes []).view⟩

theorem linkSample_grows {s : DeviceRun String} {counted : String → Traffic} (second : ℕ)
    {up : List String} (hnodup : up.Nodup) (hknown : ∀ name ∈ up, name ∈ linkDevices .network)
    (hgrows : ∀ name ∈ linkDevices .network,
      ((s.before .network).counted name).inBytes ≤ (counted name).inBytes ∧
        ((s.before .network).counted name).outBytes ≤ (counted name).outBytes) :
    Grows linkDevices s (linkSample second counted up) := by
  refine ⟨fun kind => ?_, fun kind => ?_, fun kind => ?_, fun kind => ?_, fun kind => ?_⟩
  · cases kind with
    | disk => rfl
    | network =>
      show (up.map _).filterMap _ = up.map counted
      rw [List.filterMap_map]
      exact congrFun List.filterMap_eq_map up
  · cases kind with
    | disk => exact List.nodup_nil
    | network => exact hnodup
  · cases kind with
    | disk => exact fun d hd => absurd hd List.not_mem_nil
    | network => exact hknown
  · cases kind with
    | disk => exact fun d hd => absurd hd (Finset.notMem_empty d)
    | network => exact fun d hd => (hgrows d hd).1
  · cases kind with
    | disk => exact fun d hd => absurd hd (Finset.notMem_empty d)
    | network => exact fun d hd => (hgrows d hd).2

/-- An interface that comes up without a byte transferred shows all that it has ever counted. -/
theorem device_rates_not_bounded :
    Always (deviceStep .insertion) (Grows linkDevices)
        [linkSample 1 oldBytes ["en0"], linkSample 2 oldBytes ["en0", "en1"]] linkStart ∧
      ¬ Always (deviceStep .insertion) (BoundedRates .insertion linkDevices)
        [linkSample 1 oldBytes ["en0"], linkSample 2 oldBytes ["en0", "en1"]] linkStart := by
  constructor
  · refine ⟨linkSample_grows 1 (by decide) (by decide) (by decide), fun s' h => ?_⟩
    cases h
    exact ⟨linkSample_grows 2 (by decide) (by decide) (by decide), fun _ _ => trivial⟩
  · intro h
    let m := linkSample 2 oldBytes ["en0", "en1"]
    let s : DeviceRun String :=
      ⟨sample .insertion {} (linkSample 1 oldBytes ["en0"]).input (darwinSampler false),
        (linkSample 1 oldBytes ["en0"]).view⟩
    have hbound : BoundedRates .insertion linkDevices s m := (h.2 _ rfl).1
    have hmeter : s.meter .network = ⟨1000000000, some ⟨0, 0⟩, false, ⟨0, 0⟩⟩ :=
      Source.sample_meter .network .insertion {} _ _
    have hcomp : DeviceKind.network.source.Computes m.input (s.meter .network) ⟨1000, 0⟩
        ⟨0, 0⟩ := by
      rw [hmeter]
      exact ⟨rfl, rfl, by decide, by decide, by decide, by decide⟩
    have helapsed : s.elapsed m .network = 1 := by
      rw [(elapsed_of_computes hcomp).2, hmeter]
      show ((2000000000 : ℕ) - (1000000000 : ℕ) : ℚ) / 1000000000 = 1
      norm_num
    have hrate : ratePerSecond (UInt64.toNat 1000 - UInt64.toNat 0) 1 = 1000 := by
      have hbytes : UInt64.toNat 1000 = 1000 := rfl
      have hzero : UInt64.toNat 0 = 0 := rfl
      norm_num [ratePerSecond, llround, hbytes, hzero]
      decide
    have hin := (hbound .network (available_of_computes hcomp)).1
    rw [published_of_computes hcomp, helapsed] at hin
    dsimp only at hin
    rw [hrate] at hin
    have hnone : transferred (linkDevices .network) (·.inBytes) oldBytes oldBytes = 0 := by
      unfold transferred
      simp
    have hbytes : ((UInt64.toNat 1000 : ℕ) : ℚ) * 1 ≤
        (transferred (linkDevices .network) (·.inBytes) oldBytes oldBytes : ℚ) + 1 / 2 := hin
    rw [hnone, show UInt64.toNat 1000 = 1000 from rfl] at hbytes
    norm_num at hbytes

end Mtop
