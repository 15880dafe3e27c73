import Mtop.Platform.Sampler

/-! Each pair of cumulative counters has a meter: the time of the last attempt, the counters it
remembers, and the rates it shows with their flag. A call of `sample()` moves the four meters on,
each by its own reading and no other. -/
namespace Mtop
open Cxx
set_option autoImplicit false

/-! ## Sources -/

/-- The pairs of cumulative counters with rates of their own. -/
inductive Source where
  | swap | pages | disk | network
  deriving DecidableEq

structure Meter where
  lastTime : ℕ
  remembered : Option Traffic
  available : Bool
  rates : Traffic

namespace Source

/-- The counters of a successful reading. -/
def reading (source : Source) (input : SampleInput) : Option Traffic :=
  match source with
  | swap => input.memoryVm.map (·.swapTraffic input.bytesPerPage)
  | pages => input.ioVm.map (·.pageTraffic input.bytesPerPage)
  | disk =>
    if (sampleHostDiskCounters input.drivers).available then
      some (sampleHostDiskCounters input.drivers).traffic
    else none
  | network => (sampleHostNetworkCounters input.interfaces).map (·.traffic)

/-- When the source was read, or was tried to be read. -/
def time (source : Source) (input : SampleInput) : ℕ :=
  match source with
  | swap => input.memoryTime
  | _ => input.ioTime

/-- What is remembered instead of a failed reading: a disk reading is never empty. -/
def placeholder (source : Source) (input : SampleInput) (remembered : Option Traffic) :
    Option Traffic :=
  match source with
  | disk => some (sampleHostDiskCounters input.drivers).traffic
  | _ => remembered

/-- What is shown when no rates are computed: the swap rates stay. -/
def withoutRates (source : Source) (rates : Traffic) : Traffic :=
  match source with
  | swap => rates
  | _ => {}

/-- The flag that goes with computed rates; the swap rates have none and always stand. -/
def flag (source : Source) (rates : Option Traffic) : Bool :=
  match source with
  | swap => true
  | _ => rates.isSome

def available (source : Source) (snapshot : SystemSnapshot) : Bool :=
  match source with
  | swap => true
  | pages => snapshot.pagingIo.available
  | disk => snapshot.diskIo.available
  | network => snapshot.networkIo.available

def published (source : Source) (snapshot : SystemSnapshot) : Traffic :=
  match source with
  | swap => ⟨snapshot.swapinsBytesPerSec, snapshot.swapoutsBytesPerSec⟩
  | pages => ⟨snapshot.pagingIo.pageinsBytesPerSec, snapshot.pagingIo.pageoutsBytesPerSec⟩
  | disk => ⟨snapshot.diskIo.readBytesPerSec, snapshot.diskIo.writeBytesPerSec⟩
  | network => ⟨snapshot.networkIo.rxBytesPerSec, snapshot.networkIo.txBytesPerSec⟩

def meter (source : Source) (s : Sampler) : Meter :=
  match source with
  | swap =>
    ⟨s.lastMemorySampleTime, s.previousSwap, swap.available s.snapshot, swap.published s.snapshot⟩
  | pages =>
    ⟨s.lastIoSampleTime, s.previousPages, pages.available s.snapshot, pages.published s.snapshot⟩
  | disk =>
    ⟨s.lastIoSampleTime, s.previousDisk, disk.available s.snapshot, disk.published s.snapshot⟩
  | network =>
    ⟨s.lastIoSampleTime, s.previousNetwork, network.available s.snapshot,
      network.published s.snapshot⟩

/-- The rates that a sample computes for the source. -/
def newRates (source : Source) (input : SampleInput) (m : Meter) : Option Traffic :=
  (source.reading input).bind
    (counterRates (elapsedSeconds m.lastTime (source.time input)) m.remembered)

def advance (source : Source) (input : SampleInput) (m : Meter) : Meter :=
  { lastTime := source.time input
    remembered := (source.reading input).or (source.placeholder input m.remembered)
    available := source.flag (source.newRates input m)
    rates := (source.newRates input m).getD (source.withoutRates m.rates) }

/-! ## The stages of a sample -/

theorem stampSample_meter (source : Source) (input : SampleInput) (s : Sampler) :
    source.meter (stampSample input s) = source.meter s := by
  cases source <;> rfl

theorem sampleRootMetrics_meter (source : Source) (shared : RootMetrics) (input : SampleInput)
    (s : Sampler) : source.meter (sampleRootMetrics shared input s) = source.meter s := by
  unfold sampleRootMetrics applyRootMetrics
  split
  · split <;> cases source <;> rfl
  · cases source <;> rfl

theorem sampleProcesses_meter (source : Source) (σ : StdSort) (input : SampleInput) (s : Sampler) :
    source.meter (sampleProcesses σ input s) = source.meter s := by
  unfold sampleProcesses
  cases source <;> cases input.processes <;> rfl

theorem sampleMemory_swap (input : SampleInput) (s : Sampler) :
    swap.meter (sampleMemory input s) = swap.advance input (swap.meter s) := by
  unfold sampleMemory advance newRates
  cases hvm : input.memoryVm with
  | none =>
    cases input.swapUsage <;>
      simp [meter, reading, hvm, published, available, flag, placeholder, withoutRates, time]
  | some vmStat =>
    cases hrates : counterRates (elapsedSeconds s.lastMemorySampleTime input.memoryTime)
        s.previousSwap (vmStat.swapTraffic input.bytesPerPage) <;>
      cases input.swapUsage <;>
      simp [meter, reading, hvm, published, available, flag, time, hrates, publishSwap, memoryPages,
        withoutRates]

theorem sampleMemory_of_ne {source : Source} (h : source ≠ swap) (input : SampleInput)
    (s : Sampler) : source.meter (sampleMemory input s) = source.meter s := by
  unfold sampleMemory
  cases hvm : input.memoryVm with
  | none => cases input.swapUsage <;> cases source <;> first | rfl | exact absurd rfl h
  | some vmStat =>
    cases hrates : counterRates (elapsedSeconds s.lastMemorySampleTime input.memoryTime)
        s.previousSwap (vmStat.swapTraffic input.bytesPerPage) <;>
      cases input.swapUsage <;> cases source <;>
      first
      | exact absurd rfl h
      | simp [meter, published, available, publishSwap, memoryPages, hrates]

theorem samplePaging_of_ne {source : Source} (h : source ≠ pages) (seconds : ℚ)
    (input : SampleInput) (s : Sampler) :
    source.meter (samplePaging seconds input s) = source.meter s := by
  unfold samplePaging
  cases input.ioVm <;> cases source <;> first | rfl | exact absurd rfl h

theorem sampleDisk_of_ne {source : Source} (h : source ≠ disk) (seconds : ℚ) (input : SampleInput)
    (s : Sampler) : source.meter (sampleDisk seconds input s) = source.meter s := by
  cases source <;> first | rfl | exact absurd rfl h

theorem sampleNetwork_of_ne {source : Source} (h : source ≠ network) (seconds : ℚ)
    (input : SampleInput) (s : Sampler) :
    source.meter (sampleNetwork seconds input s) = source.meter s := by
  unfold sampleNetwork
  cases sampleHostNetworkCounters input.interfaces <;> cases source <;>
    first | rfl | exact absurd rfl h

section Stages
variable (last : ℕ) (input : SampleInput) {s : Sampler} (h : s.lastIoSampleTime = input.ioTime)
include h

theorem samplePaging_pages :
    pages.meter (samplePaging (elapsedSeconds last input.ioTime) input s) =
      pages.advance input { pages.meter s with lastTime := last } := by
  unfold samplePaging advance newRates
  cases hvm : input.ioVm with
  | none => simp [meter, reading, hvm, published, available, flag, placeholder,
      withoutRates, time, h]
  | some vmStat =>
    cases hrates : counterRates (elapsedSeconds last input.ioTime) s.previousPages
        (vmStat.pageTraffic input.bytesPerPage) <;>
      simp [meter, reading, hvm, published, available, flag, withoutRates, time, hrates, h]

theorem sampleDisk_disk :
    disk.meter (sampleDisk (elapsedSeconds last input.ioTime) input s) =
      disk.advance input { disk.meter s with lastTime := last } := by
  unfold sampleDisk advance newRates
  cases havail : (sampleHostDiskCounters input.drivers).available with
  | false => simp [meter, reading, havail, published, available, flag, placeholder,
      withoutRates, time, h]
  | true =>
    cases hrates : counterRates (elapsedSeconds last input.ioTime) s.previousDisk
        (sampleHostDiskCounters input.drivers).traffic <;>
      simp [meter, reading, havail, published, available, flag, withoutRates, time, hrates, h]

theorem sampleNetwork_network :
    network.meter (sampleNetwork (elapsedSeconds last input.ioTime) input s) =
      network.advance input { network.meter s with lastTime := last } := by
  unfold sampleNetwork advance newRates
  cases hread : sampleHostNetworkCounters input.interfaces with
  | none => simp [meter, reading, hread, published, available, flag, placeholder,
      withoutRates, time, h]
  | some counters =>
    cases hrates : counterRates (elapsedSeconds last input.ioTime) s.previousNetwork
        counters.traffic <;>
      simp [meter, reading, hread, published, available, flag, withoutRates, time, hrates, h]

end Stages

theorem sampleSystemIo_swap (input : SampleInput) (s : Sampler) :
    swap.meter (sampleSystemIo input s) = swap.meter s := by
  unfold sampleSystemIo
  dsimp only
  rw [sampleNetwork_of_ne (by decide), sampleDisk_of_ne (by decide), samplePaging_of_ne (by decide)]
  rfl

theorem sampleSystemIo_of_ne {source : Source} (h : source ≠ swap) (input : SampleInput)
    (s : Sampler) :
    source.meter (sampleSystemIo input s) = source.advance input (source.meter s) := by
  let s1 := { s with lastIoSampleTime := input.ioTime }
  let seconds := elapsedSeconds s.lastIoSampleTime input.ioTime
  let s2 := samplePaging seconds input s1
  let s3 := sampleDisk seconds input s2
  unfold sampleSystemIo
  dsimp only
  have h2 : s2.lastIoSampleTime = input.ioTime :=
    congrArg Meter.lastTime (samplePaging_of_ne (show disk ≠ pages by decide) seconds input s1)
  have h3 : s3.lastIoSampleTime = input.ioTime :=
    (congrArg Meter.lastTime
      (sampleDisk_of_ne (show network ≠ disk by decide) seconds input s2)).trans h2
  cases source with
  | swap => exact absurd rfl h
  | pages =>
    rw [sampleNetwork_of_ne (by decide), sampleDisk_of_ne (by decide), samplePaging_pages _ _ rfl]
    rfl
  | disk =>
    rw [sampleNetwork_of_ne (by decide), sampleDisk_disk _ _ h2, samplePaging_of_ne (by decide)]
    rfl
  | network =>
    rw [sampleNetwork_network _ _ h3, sampleDisk_of_ne (by decide), samplePaging_of_ne (by decide)]
    rfl

/-! ## The whole sample -/

/-- A sample moves every meter on by its own reading. -/
theorem sample_meter (source : Source) (σ : StdSort) (shared : RootMetrics) (input : SampleInput)
    (s : Sampler) :
    source.meter (sample σ shared input s) = source.advance input (source.meter s) := by
  unfold sample
  rw [sampleProcesses_meter, sampleRootMetrics_meter]
  by_cases h : source = swap
  · subst h
    rw [sampleSystemIo_swap, sampleMemory_swap, stampSample_meter]
  · rw [sampleSystemIo_of_ne h, sampleMemory_of_ne h, stampSample_meter]

theorem sample_published (source : Source) (σ : StdSort) (shared : RootMetrics)
    (input : SampleInput) (s : Sampler) :
    source.published (sample σ shared input s).snapshot =
      (source.newRates input (source.meter s)).getD
        (source.withoutRates (source.published s.snapshot)) := by
  have hmeter := congrArg Meter.rates (sample_meter source σ shared input s)
  cases source <;> exact hmeter

theorem sample_available (source : Source) (σ : StdSort) (shared : RootMetrics)
    (input : SampleInput) (s : Sampler) :
    source.available (sample σ shared input s).snapshot =
      source.flag (source.newRates input (source.meter s)) := by
  have hmeter := congrArg Meter.available (sample_meter source σ shared input s)
  cases source <;> exact hmeter

end Source

/-! ## The two places of the swap rates -/

/-- The paging panel repeats the swap rates. -/
def PagingShowsSwap (snapshot : SystemSnapshot) : Prop :=
  snapshot.pagingIo.swapinsBytesPerSec = snapshot.swapinsBytesPerSec ∧
    snapshot.pagingIo.swapoutsBytesPerSec = snapshot.swapoutsBytesPerSec

theorem samplePaging_showsSwap (seconds : ℚ) (input : SampleInput) (s : Sampler) :
    PagingShowsSwap (samplePaging seconds input s).snapshot := by
  unfold samplePaging
  cases input.ioVm with
  | none => exact ⟨rfl, rfl⟩
  | some vmStat =>
    dsimp only
    cases counterRates seconds s.previousPages (vmStat.pageTraffic input.bytesPerPage) <;>
      exact ⟨rfl, rfl⟩

theorem sampleNetwork_showsSwap {seconds : ℚ} {input : SampleInput} {s : Sampler}
    (h : PagingShowsSwap s.snapshot) :
    PagingShowsSwap (sampleNetwork seconds input s).snapshot := by
  unfold sampleNetwork
  cases sampleHostNetworkCounters input.interfaces <;> exact h

theorem sampleRootMetrics_showsSwap {shared : RootMetrics} {input : SampleInput} {s : Sampler}
    (h : PagingShowsSwap s.snapshot) :
    PagingShowsSwap (sampleRootMetrics shared input s).snapshot := by
  unfold sampleRootMetrics applyRootMetrics
  split
  · split <;> exact h
  · exact h

theorem sampleProcesses_showsSwap {σ : StdSort} {input : SampleInput} {s : Sampler}
    (h : PagingShowsSwap s.snapshot) : PagingShowsSwap (sampleProcesses σ input s).snapshot := by
  unfold sampleProcesses
  cases input.processes <;> exact h

theorem sample_showsSwap (σ : StdSort) (shared : RootMetrics) (input : SampleInput) (s : Sampler) :
    PagingShowsSwap (sample σ shared input s).snapshot := by
  apply sampleProcesses_showsSwap
  apply sampleRootMetrics_showsSwap
  apply sampleNetwork_showsSwap
  exact samplePaging_showsSwap _ _ _

end Mtop
