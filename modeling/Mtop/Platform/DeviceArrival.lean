import Mtop.Platform.DeviceTotals
import Mathlib.Algebra.BigOperators.Ring.Finset
import Mathlib.Algebra.Order.BigOperators.Group.Finset

/-! The disk and network rates stay within the bytes transferred as long as no device comes into view
with bytes it has counted before. -/
namespace Mtop
open Cxx Machine
set_option autoImplicit false

/-! ## What a reading sums up -/

def sum64 (counters : List UInt64) : UInt64 := counters.foldr (· + ·) 0

def total (seen : List Traffic) : Traffic :=
  ⟨sum64 (seen.map (·.inBytes)), sum64 (seen.map (·.outBytes))⟩

theorem foldl_addInterface (interfaces : List Interface) (counters : HostNetworkCounters) :
    let seen := interfaces.filterMap fun current => if current.counted then current.data else none
    interfaces.foldl addInterface counters =
      { rxBytes := counters.rxBytes + (total seen).inBytes
        txBytes := counters.txBytes + (total seen).outBytes
        available := counters.available || !seen.isEmpty } := by
  induction interfaces generalizing counters with
  | nil => simp [total, sum64]
  | cons current rest ih =>
    rw [List.foldl_cons, ih]
    cases hdata : current.data with
    | none => simp [addInterface, hdata]
    | some data =>
      by_cases hcounted : current.counted = true
      · simp [addInterface, hdata, hcounted, total, sum64, UInt64.add_assoc]
      · simp [addInterface, hdata, hcounted]

theorem foldl_addDriver (drivers : List (Option DriverStatistics)) (counters : HostDiskCounters) :
    let seen := total (drivers.filterMap fun stats =>
      stats.map fun stats => ⟨stats.bytesRead.getD 0, stats.bytesWritten.getD 0⟩)
    (drivers.foldl addDriver counters).traffic =
      ⟨counters.readBytes + seen.inBytes, counters.writeBytes + seen.outBytes⟩ := by
  induction drivers generalizing counters with
  | nil => simp [total, sum64, HostDiskCounters.traffic]
  | cons stats rest ih =>
    rw [List.foldl_cons, ih]
    cases stats with
    | none => simp [addDriver]
    | some stats =>
      by_cases hzero : stats.bytesRead.getD 0 > 0 ∨ stats.bytesWritten.getD 0 > 0
      · simp [addDriver, hzero, total, sum64, UInt64.add_assoc]
      · -- a driver that has counted nothing is left out of the sum
        obtain ⟨hread, hwritten⟩ := not_or.mp hzero
        have hread0 := UInt64.le_zero_iff.mp (UInt64.not_lt.mp hread)
        have hwritten0 := UInt64.le_zero_iff.mp (UInt64.not_lt.mp hwritten)
        simp [addDriver, total, sum64, hread0, hwritten0]

theorem sampleHostDiskCounters_traffic (input : SampleInput) :
    (sampleHostDiskCounters input.drivers).traffic = total (DeviceKind.disk.seen input) := by
  unfold sampleHostDiskCounters DeviceKind.seen
  cases input.drivers with
  | matchingFailed => rfl
  | servicesFailed => rfl
  | found drivers =>
    have hfold := foldl_addDriver drivers {}
    dsimp only at hfold ⊢
    split
    · rw [hfold, UInt64.zero_add, UInt64.zero_add]
    · refine Eq.trans ?_ (hfold.trans ?_)
      · rfl
      · rw [UInt64.zero_add, UInt64.zero_add]

theorem sampleHostNetworkCounters_eq (input : SampleInput) :
    (sampleHostNetworkCounters input.interfaces).map (·.traffic) =
      if DeviceKind.network.seen input = [] then none
      else some (total (DeviceKind.network.seen input)) := by
  unfold sampleHostNetworkCounters DeviceKind.seen
  cases input.interfaces with
  | none => rfl
  | some interfaces =>
    dsimp only
    rw [foldl_addInterface, Option.getD_some]
    cases interfaces.filterMap fun current => if current.counted then current.data else none with
    | nil => rfl
    | cons data rest => simp [HostNetworkCounters.traffic]

/-- A reading is the sum over the devices in view. -/
theorem reading_eq_total {kind : DeviceKind} {input : SampleInput} {counters : Traffic}
    (h : kind.source.reading input = some counters) : counters = total (kind.seen input) := by
  cases kind with
  | disk =>
    obtain ⟨-, hsome⟩ := Option.ite_none_right_eq_some.mp h
    rw [← sampleHostDiskCounters_traffic]
    exact (Option.some.inj hsome).symm
  | network =>
    have hread := (sampleHostNetworkCounters_eq input).symm.trans h
    exact (Option.some.inj (Option.ite_none_left_eq_some.mp hread).2).symm

/-- A sample with a device in view remembers their sum. -/
theorem advance_remembered {kind : DeviceKind} {input : SampleInput} (m : Meter)
    (h : kind.seen input ≠ []) :
    (kind.source.advance input m).remembered = some (total (kind.seen input)) := by
  unfold Source.advance
  cases hread : kind.source.reading input with
  | some counters =>
    rw [reading_eq_total hread]
    rfl
  | none =>
    cases kind with
    | disk => exact congrArg some (sampleHostDiskCounters_traffic input)
    | network =>
      have hsum := (sampleHostNetworkCounters_eq input).symm.trans hread
      rw [if_neg h] at hsum
      cases hsum

/-! ## The devices in view -/

theorem sum64_toNat (counters : List UInt64) :
    (sum64 counters).toNat = (counters.map (·.toNat)).sum % 2 ^ 64 := by
  induction counters with
  | nil => rfl
  | cons counter counters ih =>
    have hcons : sum64 (counter :: counters) = counter + sum64 counters := rfl
    rw [hcons, List.map_cons, List.sum_cons, UInt64.toNat_add, ih]
    omega

/-- The bytes that the devices in view have counted, without wrapping. -/
def DeviceView.bytes {ι : Type} (view : DeviceView ι) (side : Traffic → UInt64) : ℕ :=
  (view.inView.map fun d => (side (view.counted d)).toNat).sum

section InView
variable {ι : Type} {devices : Finset ι} {side : Traffic → UInt64} {before now : DeviceView ι}

theorem total_toNat (hside : ∀ seen, side (total seen) = sum64 (seen.map side))
    (view : DeviceView ι) :
    (side (total (view.inView.map view.counted))).toNat = view.bytes side % 2 ^ 64 := by
  rw [hside, sum64_toNat, List.map_map, List.map_map]
  rfl

/-- The devices in view have transferred some of all bytes, and what they had counted before was in
view too. -/
theorem bytes_le (hnodup : before.inView.Nodup) (hnodup' : now.inView.Nodup)
    (hknown : ∀ d ∈ now.inView, d ∈ devices)
    (hgrows : ∀ d ∈ devices, side (before.counted d) ≤ side (now.counted d))
    (hfresh : ∀ d ∈ now.inView, d ∉ before.inView → (side (before.counted d)).toNat = 0) :
    (now.bytes side : ℤ) ≤
      before.bytes side + transferred devices side before.counted now.counted := by
  classical
  have hsum : ∀ {view : DeviceView ι}, view.inView.Nodup →
      view.bytes side = ∑ d ∈ view.inView.toFinset, (side (view.counted d)).toNat :=
    fun hview => (List.sum_toFinset _ hview).symm
  have hsubset : now.inView.toFinset ⊆ devices := fun d hd => hknown d (List.mem_toFinset.mp hd)
  have hold : ∑ d ∈ now.inView.toFinset, (side (before.counted d)).toNat ≤
      ∑ d ∈ before.inView.toFinset, (side (before.counted d)).toNat := by
    refine Finset.sum_le_sum_of_ne_zero fun d hd hne => ?_
    exact List.mem_toFinset.mpr (by_contra fun hout => hne (hfresh d (List.mem_toFinset.mp hd) hout))
  rw [hsum hnodup, hsum hnodup', Nat.cast_sum, Nat.cast_sum]
  calc ∑ d ∈ now.inView.toFinset, ((side (now.counted d)).toNat : ℤ)
      = ∑ d ∈ now.inView.toFinset, ((side (before.counted d)).toNat : ℤ) +
          ∑ d ∈ now.inView.toFinset,
            (((side (now.counted d)).toNat : ℤ) - ((side (before.counted d)).toNat : ℤ)) := by
        rw [← Finset.sum_add_distrib]
        exact Finset.sum_congr rfl fun d _ => by ring
    _ ≤ _ := by
        refine add_le_add ?_ ?_
        · exact_mod_cast hold
        · refine Finset.sum_le_sum_of_subset_of_nonneg hsubset fun d hd _ => ?_
          exact sub_nonneg.mpr (by exact_mod_cast UInt64.le_iff_toNat_le.mp (hgrows d hd))

end InView

/-! ## Runs without late arrivals -/

section Arrivals
variable {ι : Type} (devices : DeviceKind → Finset ι)

/-- What is remembered is the sum over the devices that were in view. -/
def Remembers (s : DeviceRun ι) : Prop :=
  ∀ (kind : DeviceKind) (remembered : Traffic), (s.meter kind).remembered = some remembered →
    (s.before kind).inView.Nodup ∧
      ((s.before kind).inView ≠ [] →
        remembered = total ((s.before kind).inView.map (s.before kind).counted))

/-- Once there is something to continue, a device that comes into view has counted nothing before, and
what the devices in view had counted fits in 64 bits. -/
structure NoLateArrival (s : DeviceRun ι) (m : DeviceSample ι) : Prop where
  fresh (kind : DeviceKind) : (s.meter kind).remembered ≠ none → ∀ d ∈ (m.view kind).inView,
    d ∉ (s.before kind).inView → (s.before kind).counted d = {}
  inFits (kind : DeviceKind) : (s.before kind).bytes (·.inBytes) < 2 ^ 64
  outFits (kind : DeviceKind) : (s.before kind).bytes (·.outBytes) < 2 ^ 64

variable {devices} {σ : StdSort} {s : DeviceRun ι} {m : DeviceSample ι}

theorem deviceStep_remembers {s' : DeviceRun ι} (h : Grows devices s m)
    (hstep : deviceStep σ m s = some s') : Remembers s' := by
  cases hstep
  intro kind remembered hremembered
  refine ⟨h.nodup kind, fun hview => ?_⟩
  have hseen : kind.seen m.input ≠ [] := by
    rw [h.shown kind]
    exact fun hnil => hview (List.map_eq_nil_iff.mp hnil)
  unfold DeviceRun.meter at hremembered
  rw [Source.sample_meter, advance_remembered _ hseen, h.shown kind] at hremembered
  exact (Option.some.inj hremembered).symm

/-- One direction of the traffic of one kind of device. -/
theorem boundedRate_side {kind : DeviceKind} {counters remembered : Traffic}
    {side : Traffic → UInt64} (hside : ∀ seen, side (total seen) = sum64 (seen.map side))
    (hzero : side {} = 0) (hs : Remembers s) (hgrown : Grows devices s m)
    (hfresh : ∀ d ∈ (m.view kind).inView, d ∉ (s.before kind).inView →
      (s.before kind).counted d = {})
    (hfits : (s.before kind).bytes side < 2 ^ 64)
    (hgrows : ∀ d ∈ devices kind,
      side ((s.before kind).counted d) ≤ side ((m.view kind).counted d))
    (hle : side remembered ≤ side counters)
    (hcomp : kind.source.Computes m.input (s.meter kind) counters remembered) :
    BoundedRate (devices kind) side (s.before kind).counted (m.view kind).counted (s.elapsed m kind)
      (ratePerSecond ((side counters).toNat - (side remembered).toNat) (s.elapsed m kind)) := by
  obtain ⟨hnodup, htotal⟩ := hs kind remembered hcomp.remembered
  have hseconds := (elapsed_of_computes hcomp).1
  have hle' := UInt64.le_iff_toNat_le.mp hle
  have hbytes := bytes_le hnodup (hgrown.nodup kind) (hgrown.known kind) hgrows
    fun d hd hout => by rw [hfresh d hd hout, hzero]; rfl
  have hnow : (side counters).toNat ≤ (m.view kind).bytes side := by
    rw [reading_eq_total hcomp.read, hgrown.shown kind, total_toNat hside]
    exact Nat.mod_le _ _
  -- A view without devices has counted nothing, whatever is remembered.
  have hbefore : (s.before kind).bytes side ≤ (side remembered).toNat := by
    by_cases hview : (s.before kind).inView = []
    · unfold DeviceView.bytes
      rw [hview]
      exact Nat.zero_le _
    · rw [htotal hview, total_toNat hside, Nat.mod_eq_of_lt hfits]
  have hrate := ratePerSecond_le
    (show 0 ≤ ((side counters).toNat : ℤ) - (side remembered).toNat by omega) hseconds
  unfold BoundedRate
  push_cast at hrate ⊢
  refine hrate.trans (add_le_add_left ?_ _)
  have hint : ((side counters).toNat : ℤ) - (side remembered).toNat ≤
      transferred (devices kind) side (s.before kind).counted (m.view kind).counted := by omega
  exact_mod_cast hint

theorem boundedRates_of_noLateArrival (hs : Remembers s) (hgrown : Grows devices s m)
    (h : NoLateArrival s m) : BoundedRates σ devices s m := by
  intro kind snapshot havail
  obtain ⟨counters, remembered, hcomp⟩ := computes_of_available havail
  have hfresh := h.fresh kind (by rw [hcomp.remembered]; exact Option.some_ne_none _)
  rw [published_of_computes hcomp]
  exact ⟨boundedRate_side (fun _ => rfl) rfl hs hgrown hfresh (h.inFits kind)
      (hgrown.inBytes kind) hcomp.inBytes hcomp,
    boundedRate_side (fun _ => rfl) rfl hs hgrown hfresh (h.outFits kind)
      (hgrown.outBytes kind) hcomp.outBytes hcomp⟩

/-- In every run in which no counter goes back and no device comes into view with old bytes, the rates
stay within the bytes transferred. -/
theorem device_rates_bounded (σ : StdSort) (devices : DeviceKind → Finset ι) (rootMode : Bool)
    (before : DeviceKind → DeviceView ι) (moves : List (DeviceSample ι))
    (hgrows : Always (deviceStep σ) (Grows devices) moves ⟨darwinSampler rootMode, before⟩)
    (harrivals : Always (deviceStep σ) NoLateArrival moves ⟨darwinSampler rootMode, before⟩) :
    Always (deviceStep σ) (BoundedRates σ devices) moves ⟨darwinSampler rootMode, before⟩ := by
  have hstart : Remembers (⟨darwinSampler rootMode, before⟩ : DeviceRun ι) := by
    intro kind remembered hremembered
    cases kind <;> cases hremembered
  exact (hgrows.and harrivals).under (fun _ _ _ _ hgood => deviceStep_remembers hgood.1)
    (fun _ _ hs hgood => boundedRates_of_noLateArrival hs hgood.1 hgood.2) hstart

end Arrivals

/-- `en1` comes up for the first time while `en0` goes on. -/
theorem device_rates_bounded_newLink :
    let counted : String → Traffic := fun name => if name = "en0" then ⟨100, 0⟩ else {}
    let counted' : String → Traffic := fun name => if name = "en0" then ⟨300, 0⟩ else ⟨40, 0⟩
    Always (deviceStep .insertion) (BoundedRates .insertion linkDevices)
      [linkSample 1 counted ["en0"], linkSample 2 counted' ["en0", "en1"]]
      ⟨darwinSampler false, (linkSample 0 (fun _ => {}) []).view⟩ := by
  intro counted counted'
  refine device_rates_bounded .insertion linkDevices false _ _
    ⟨linkSample_grows 1 (by decide) (by decide) (by decide), fun s h => ?_⟩
    ⟨⟨fun kind hsome => ?_, fun kind => ?_, fun kind => ?_⟩, fun s h => ?_⟩
  · cases h
    exact ⟨linkSample_grows 2 (by decide) (by decide) (by decide), fun _ _ => trivial⟩
  · cases kind <;> exact absurd rfl hsome
  · cases kind <;> decide
  · cases kind <;> decide
  · cases h
    refine ⟨⟨fun kind _ => ?_, fun kind => ?_, fun kind => ?_⟩, fun _ _ => trivial⟩
    · cases kind with
      | disk => exact fun d hd => absurd hd List.not_mem_nil
      | network => exact (by decide : ∀ d ∈ ["en0", "en1"], d ∉ ["en0"] → counted d = {})
    · cases kind <;> decide
    · cases kind <;> decide

end Mtop
