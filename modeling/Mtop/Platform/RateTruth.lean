import Mtop.Platform.Meter
import Mtop.Library.Run

/-! Which two readings a published rate belongs to, over whole runs of the sampler. A failed reading
moves the clock of its source on without new counters; the next success pairs the two. -/
namespace Mtop
open Cxx Machine
set_option autoImplicit false

/-! ## Rates between two readings -/

/-- The rounded rate between two readings. -/
def rateBetween (counter previous : UInt64) (now before : ℕ) : UInt64 :=
  ratePerSecond ((counter.toNat : ℚ) - (previous.toNat : ℚ))
    (((now : ℚ) - (before : ℚ)) / 1000000000)

def Traffic.ratesBetween (counters previous : Traffic) (now before : ℕ) : Traffic :=
  ⟨rateBetween counters.inBytes previous.inBytes now before,
    rateBetween counters.outBytes previous.outBytes now before⟩

theorem elapsedSeconds_pos_iff {last now : ℕ} :
    elapsedSeconds last now > 0 ↔ 0 < last ∧ last < now := by
  unfold elapsedSeconds
  by_cases hlast : last = 0
  · rw [if_pos hlast]
    exact iff_of_false (lt_irrefl 0) fun h => (Nat.pos_iff_ne_zero.mp h.1) hlast
  · rw [if_neg hlast]
    have hdiv : ((now : ℚ) - (last : ℚ)) / 1000000000 > 0 ↔ (last : ℚ) < (now : ℚ) := by
      rw [gt_iff_lt, div_pos_iff_of_pos_right (by norm_num), sub_pos]
    rw [hdiv, Nat.cast_lt]
    exact ⟨fun h => ⟨Nat.pos_of_ne_zero hlast, h⟩, fun h => h.2⟩

theorem ratePerSecond_between {counter previous : UInt64} {last now : ℕ} (hlast : 0 < last)
    (hle : previous ≤ counter) :
    ratePerSecond (counter - previous).toNat (elapsedSeconds last now) =
      rateBetween counter previous now last := by
  unfold rateBetween elapsedSeconds
  rw [if_neg (Nat.pos_iff_ne_zero.mp hlast), UInt64.toNat_sub_of_le _ _ hle,
    Nat.cast_sub (UInt64.le_iff_toNat_le.mp hle)]

namespace Source

/-- Rates are computed: the reading succeeds, something is remembered, the clock has moved on, and
neither counter went back. -/
structure Computes (source : Source) (input : SampleInput) (m : Meter)
    (counters before : Traffic) : Prop where
  read : source.reading input = some counters
  remembered : m.remembered = some before
  clockSet : 0 < m.lastTime
  clockMoved : m.lastTime < source.time input
  inBytes : before.inBytes ≤ counters.inBytes
  outBytes : before.outBytes ≤ counters.outBytes

variable {source : Source} {input : SampleInput} {m : Meter} {counters before rates : Traffic}

theorem Computes.newRates (h : source.Computes input m counters before) :
    source.newRates input m =
      some (counters.ratesBetween before (source.time input) m.lastTime) := by
  have hrates := elapsedSeconds_pos_iff.mpr ⟨h.clockSet, h.clockMoved⟩
  unfold Source.newRates counterRates Traffic.ratesBetween
  rw [h.read, h.remembered, Option.bind_some]
  dsimp only
  rw [if_pos ⟨hrates, h.inBytes, h.outBytes⟩, ratePerSecond_between h.clockSet h.inBytes,
    ratePerSecond_between h.clockSet h.outBytes]

theorem computes_of_newRates (h : source.newRates input m = some rates) :
    ∃ counters before, source.Computes input m counters before := by
  obtain ⟨counters, hread, hrates⟩ := Option.bind_eq_some_iff.mp h
  unfold counterRates at hrates
  cases hbefore : m.remembered with
  | none =>
    rw [hbefore] at hrates
    cases hrates
  | some before =>
    rw [hbefore] at hrates
    obtain ⟨⟨htime, hin, hout⟩, -⟩ := Option.ite_none_right_eq_some.mp hrates
    obtain ⟨hset, hmoved⟩ := elapsedSeconds_pos_iff.mp htime
    exact ⟨counters, before, hread, hbefore, hset, hmoved, hin, hout⟩

/-! ## What a rate is owed -/

/-- The latest success among the samples before, newest first, with its time. -/
def latest (source : Source) (past : List SampleInput) : Option (ℕ × Traffic) :=
  past.findSome? fun input =>
    (source.reading input).map fun counters => (source.time input, counters)

/-- The rate is zero, or the one between this reading and the latest success before it. -/
def Owed (source : Source) (side : Traffic → UInt64) (past : List SampleInput)
    (input : SampleInput) (rate : UInt64) : Prop :=
  rate ≠ 0 → ∃ counters time before, source.reading input = some counters ∧
    source.latest past = some (time, before) ∧ side before ≤ side counters ∧
    rate = rateBetween (side counters) (side before) (source.time input) time

def OwedRates (source : Source) (past : List SampleInput) (input : SampleInput)
    (rates : Traffic) : Prop :=
  source.Owed (·.inBytes) past input rates.inBytes ∧
    source.Owed (·.outBytes) past input rates.outBytes

/-- The sample before read the source. -/
def JustRead (source : Source) (past : List SampleInput) : Prop :=
  ∃ input rest, past = input :: rest ∧ (source.reading input).isSome = true

/-- What has been counted since then rounds to no rate: fewer bytes than half of the seconds. -/
def Negligible (counter previous : UInt64) (last now : ℕ) : Prop :=
  2000000000 * (counter - previous).toNat < now - last

/-- The condition on one source before a sample: counters that continue the remembered ones were read
by the sample before too, or have hardly moved; and counters that do not continue them find no swap
rates left to be shown. -/
structure Paired (source : Source) (past : List SampleInput) (input : SampleInput)
    (m : Meter) : Prop where
  read : ∀ counters before, source.Computes input m counters before →
    source.JustRead past ∨
      (Negligible counters.inBytes before.inBytes m.lastTime (source.time input) ∧
        Negligible counters.outBytes before.outBytes m.lastTime (source.time input))
  swapIdle : source = swap → (∀ counters before, ¬ source.Computes input m counters before) →
    m.rates = {}

/-- A meter follows the sample before. -/
def Follows (source : Source) (past : List SampleInput) (m : Meter) : Prop :=
  ∀ input rest, past = input :: rest →
    m.lastTime = source.time input ∧
      ∀ counters, source.reading input = some counters → m.remembered = some counters

theorem owed_zero (side : Traffic → UInt64) (past : List SampleInput) :
    source.Owed side past input 0 :=
  fun h => absurd rfl h

theorem advance_follows (past : List SampleInput) :
    source.Follows (input :: past) (source.advance input m) := by
  intro input' rest h
  cases h
  refine ⟨rfl, fun counters hread => ?_⟩
  unfold advance
  rw [hread]
  rfl

/-- Between two samples in a row the attempt before is the success before. -/
theorem owedRates_of_justRead {past : List SampleInput} (hm : source.Follows past m)
    (h : source.Computes input m counters before) (hpast : source.JustRead past) :
    source.OwedRates past input (counters.ratesBetween before (source.time input) m.lastTime) := by
  obtain ⟨input', rest, rfl, hsome⟩ := hpast
  obtain ⟨counters', hread⟩ := Option.isSome_iff_exists.mp hsome
  obtain ⟨htime, hremembered⟩ := hm input' rest rfl
  have hbefore : before = counters' := by
    have heq := h.remembered.symm.trans (hremembered counters' hread)
    exact Option.some.inj heq
  have hlatest : source.latest (input' :: rest) = some (m.lastTime, before) := by
    unfold latest
    rw [List.findSome?_cons, hread, htime, hbefore]
    rfl
  exact ⟨fun _ => ⟨counters, m.lastTime, before, h.read, hlatest, h.inBytes, rfl⟩,
    fun _ => ⟨counters, m.lastTime, before, h.read, hlatest, h.outBytes, rfl⟩⟩

theorem rateBetween_of_negligible {counter previous : UInt64} {last now : ℕ} (hlast : 0 < last)
    (hmoved : last < now) (hle : previous ≤ counter) (h : Negligible counter previous last now) :
    rateBetween counter previous now last = 0 := by
  have hseconds := elapsedSeconds_pos_iff.mpr ⟨hlast, hmoved⟩
  have hbytes : (((counter - previous).toNat : ℕ) : ℚ) / elapsedSeconds last now < 1 / 2 := by
    have hcast : ((2000000000 * (counter - previous).toNat : ℕ) : ℚ) < ((now - last : ℕ) : ℚ) :=
      Nat.cast_lt.mpr h
    rw [Nat.cast_sub hmoved.le, Nat.cast_mul] at hcast
    rw [div_lt_iff₀ hseconds]
    unfold elapsedSeconds
    rw [if_neg (Nat.pos_iff_ne_zero.mp hlast)]
    push_cast at hcast
    linarith
  have hnonneg : 0 ≤ (((counter - previous).toNat : ℕ) : ℚ) / elapsedSeconds last now :=
    div_nonneg (Nat.cast_nonneg _) hseconds.le
  rw [← ratePerSecond_between hlast hle]
  unfold ratePerSecond
  rw [llround_of_nonneg hnonneg, Int.floor_eq_zero_iff.mpr ⟨by linarith, by linarith⟩]
  rfl

theorem owedRates_of_negligible {past : List SampleInput}
    (h : source.Computes input m counters before)
    (hin : Negligible counters.inBytes before.inBytes m.lastTime (source.time input))
    (hout : Negligible counters.outBytes before.outBytes m.lastTime (source.time input)) :
    source.OwedRates past input (counters.ratesBetween before (source.time input) m.lastTime) := by
  unfold OwedRates Traffic.ratesBetween
  dsimp only
  rw [rateBetween_of_negligible h.clockSet h.clockMoved h.inBytes hin,
    rateBetween_of_negligible h.clockSet h.clockMoved h.outBytes hout]
  exact ⟨owed_zero _ _, owed_zero _ _⟩

theorem owedRates_of_paired {past : List SampleInput} (hm : source.Follows past m)
    (h : source.Paired past input m) :
    source.OwedRates past input
      ((source.newRates input m).getD (source.withoutRates m.rates)) := by
  cases hnew : source.newRates input m with
  | some rates =>
    obtain ⟨counters, before, hcomp⟩ := computes_of_newRates hnew
    have hrates := Option.some.inj (hnew.symm.trans hcomp.newRates)
    rw [Option.getD_some, hrates]
    rcases h.read counters before hcomp with hread | ⟨hin, hout⟩
    · exact owedRates_of_justRead hm hcomp hread
    · exact owedRates_of_negligible hcomp hin hout
  | none =>
    have hnone : ∀ counters before, ¬ source.Computes input m counters before := by
      intro counters before hcomp
      cases hnew.symm.trans hcomp.newRates
    rw [Option.getD_none]
    cases source with
    | swap =>
      rw [h.swapIdle rfl hnone]
      exact ⟨owed_zero _ _, owed_zero _ _⟩
    | pages => exact ⟨owed_zero _ _, owed_zero _ _⟩
    | disk => exact ⟨owed_zero _ _, owed_zero _ _⟩
    | network => exact ⟨owed_zero _ _, owed_zero _ _⟩

end Source

/-! ## Runs -/

/-- The sampler with the readings of its past, newest first. -/
structure SamplerRun where
  sampler : Sampler
  past : List SampleInput := []

section Runs
variable (σ : StdSort)

/-- A sample: what the background thread has published by then, and what the kernel answers. -/
def sampleStep (m : RootMetrics × SampleInput) (s : SamplerRun) : Option SamplerRun :=
  some ⟨sample σ m.1 m.2 s.sampler, m.2 :: s.past⟩

/-- Every published rate is zero or owed, and the swap rates are the same in both places. -/
def TruthfulRates (s : SamplerRun) (m : RootMetrics × SampleInput) : Prop :=
  let snapshot := (sample σ m.1 m.2 s.sampler).snapshot
  PagingShowsSwap snapshot ∧
    ∀ source : Source, source.OwedRates s.past m.2 (source.published snapshot)

def PairedReadings (s : SamplerRun) (m : RootMetrics × SampleInput) : Prop :=
  ∀ source : Source, source.Paired s.past m.2 (source.meter s.sampler)

def SamplerRun.Follows (s : SamplerRun) : Prop :=
  ∀ source : Source, source.Follows s.past (source.meter s.sampler)

variable {σ}

theorem sampleStep_follows (s : SamplerRun) (m : RootMetrics × SampleInput) (s' : SamplerRun)
    (h : sampleStep σ m s = some s') : s'.Follows := by
  cases h
  intro source
  dsimp only
  rw [Source.sample_meter]
  exact Source.advance_follows s.past

theorem truthfulRates_of_paired {s : SamplerRun} {m : RootMetrics × SampleInput} (hs : s.Follows)
    (h : PairedReadings s m) : TruthfulRates σ s m := by
  refine ⟨sample_showsSwap σ m.1 m.2 s.sampler, fun source => ?_⟩
  have howed := Source.owedRates_of_paired (hs source) (h source)
  rw [Source.sample_published]
  cases source <;> exact howed

/-- In every run whose samples meet the condition on what they start from, the rates are truthful
throughout. -/
theorem rates_truthful (σ : StdSort) (rootMode : Bool) (moves : List (RootMetrics × SampleInput))
    (h : Always (sampleStep σ) PairedReadings moves ⟨darwinSampler rootMode, []⟩) :
    Always (sampleStep σ) (TruthfulRates σ) moves ⟨darwinSampler rootMode, []⟩ := by
  have hstart : SamplerRun.Follows ⟨darwinSampler rootMode, []⟩ := by
    intro source input rest h
    cases h
  exact h.under (fun s m s' _ _ => sampleStep_follows s m s')
    (fun _ _ hs hpaired => truthfulRates_of_paired hs hpaired) hstart

end Runs

/-- One interface, read at the given second; `none` is a failed `getifaddrs`. -/
def interfaceSample (second : ℕ) (rxBytes : Option UInt64) : RootMetrics × SampleInput :=
  ({}, { ioTime := second * 1000000000
         interfaces := rxBytes.map fun bytes =>
           [{ name := some (str "en0"), data := some ⟨bytes, 0⟩, up := true, loopback := false }] })

/-- Only the network is read, and it decides. -/
theorem interfaceSample_paired {s : SamplerRun} {second : ℕ} {rxBytes : Option UInt64}
    (hswap : (Source.swap.meter s.sampler).rates = {})
    (hnetwork : Source.network.Paired s.past (interfaceSample second rxBytes).2
      (Source.network.meter s.sampler)) :
    PairedReadings s (interfaceSample second rxBytes) := by
  intro source
  cases source with
  | swap => exact ⟨fun _ _ h => (nomatch h.read), fun _ _ => hswap⟩
  | pages => exact ⟨fun _ _ h => (nomatch h.read), nofun⟩
  | disk => exact ⟨fun _ _ h => (nomatch h.read), nofun⟩
  | network => exact hnetwork

theorem interfaceSample_swapIdle {σ : StdSort} {s : Sampler} (second : ℕ) (rxBytes : Option UInt64)
    (h : (Source.swap.meter s).rates = {}) :
    (Source.swap.meter (sample σ {} (interfaceSample second rxBytes).2 s)).rates = {} := by
  rw [Source.sample_meter]
  exact h

/-- A reading right behind another one, then a failed one, and one without new bytes. -/
theorem rates_truthful_interface :
    Always (sampleStep .insertion) (TruthfulRates .insertion)
      [interfaceSample 1 (some 0), interfaceSample 2 (some 1000), interfaceSample 3 none,
        interfaceSample 4 (some 1000)]
      ⟨darwinSampler false, []⟩ := by
  refine rates_truthful .insertion false _ ⟨interfaceSample_paired rfl ?_, fun s h => ?_⟩
  · exact ⟨fun _ _ h => (nomatch h.remembered), nofun⟩
  cases h
  have hidle := interfaceSample_swapIdle (σ := .insertion) (s := darwinSampler false) 1 (some 0) rfl
  refine ⟨interfaceSample_paired hidle ?_, fun s h => ?_⟩
  · exact ⟨fun _ _ _ => .inl ⟨_, _, rfl, rfl⟩, nofun⟩
  cases h
  have hidle := interfaceSample_swapIdle (σ := .insertion) 2 (some 1000) hidle
  refine ⟨interfaceSample_paired hidle ?_, fun s h => ?_⟩
  · exact ⟨fun _ _ h => (nomatch h.read), nofun⟩
  cases h
  have hidle := interfaceSample_swapIdle (σ := .insertion) 3 none hidle
  refine ⟨interfaceSample_paired hidle ⟨fun _ _ h => .inr ?_, nofun⟩, fun _ _ => trivial⟩
  obtain ⟨hread, hremembered⟩ := And.intro h.read h.remembered
  dsimp only at hremembered ⊢
  rw [Source.sample_meter, Source.sample_meter, Source.sample_meter] at hremembered ⊢
  cases hread
  cases hremembered
  have hnone : 2000000000 * ((1000 : UInt64) - 1000).toNat < 4000000000 - 3000000000 := by decide
  exact ⟨hnone, hnone⟩

/-- 1000 bytes in two seconds are shown as 1000 bytes per second when the reading between fails. -/
theorem rates_not_truthful :
    ¬ Always (sampleStep .insertion) (TruthfulRates .insertion)
      [interfaceSample 1 (some 0), interfaceSample 2 none, interfaceSample 3 (some 1000)]
      ⟨darwinSampler false, []⟩ := by
  intro h
  have howed := ((h.2 _ rfl).2 _ rfl).1.2 .network
  have hcomp : Source.network.Computes (interfaceSample 3 (some 1000)).2
      (Source.network.advance (interfaceSample 2 none).2
        (Source.network.advance (interfaceSample 1 (some 0)).2
          (Source.network.meter (darwinSampler false)))) ⟨1000, 0⟩ ⟨0, 0⟩ :=
    ⟨rfl, rfl, by decide, by decide, by decide, by decide⟩
  have hbytes : UInt64.toNat 1000 = 1000 := rfl
  have hshown : rateBetween 1000 0 3000000000 2000000000 = 1000 := by
    norm_num [rateBetween, ratePerSecond, llround, hbytes]
    decide
  have hright : rateBetween 1000 0 3000000000 1000000000 = 500 := by
    norm_num [rateBetween, ratePerSecond, llround, hbytes]
    decide
  rw [Source.sample_published] at howed
  dsimp only at howed
  rw [Source.sample_meter, Source.sample_meter, hcomp.newRates] at howed
  obtain ⟨counters, time, before, hread, hlatest, -, hrate⟩ :=
    howed.1 (show rateBetween 1000 0 3000000000 2000000000 ≠ 0 by rw [hshown]; decide)
  cases hread
  cases hlatest
  have hrates : rateBetween 1000 0 3000000000 2000000000 =
      rateBetween 1000 0 3000000000 1000000000 := hrate
  rw [hshown, hright] at hrates
  cases hrates

end Mtop
