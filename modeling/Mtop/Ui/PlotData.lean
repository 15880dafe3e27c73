import Mathlib.Tactic.Linarith
import Mtop.Ui.Plot

/-! What the plot data is: the newest samples of both series, cut into slices, with the means of the
slices in the last pairs of columns. An odd width leaves one zero behind them. Every read and write on
the way is inside its vector. -/
namespace Mtop
open Cxx
set_option autoImplicit false

/-! ## Slices of a history -/

def newest (count : ℕ) (history : History) : List ℚ :=
  history.values.drop (history.values.length - count)

def mean (samples : List ℚ) : ℚ := samples.sum / samples.length

/-- The slices of the newest samples, oldest first. -/
def historySlices (history : History) (count parts : ℕ) : List (List ℚ) :=
  slices (newest count history) parts

theorem length_newest {count : ℕ} {history : History} (h : count ≤ history.values.length) :
    (newest count history).length = count := by
  rw [newest, List.length_drop]
  omega

theorem length_means (history : History) (count parts : ℕ) :
    ((historySlices history count parts).map mean).length = parts := by
  rw [List.length_map, historySlices, length_slices]

/-- The inner loop over samples that are there adds them up. -/
theorem sumSamples_eq (history : History) (start count : ℕ)
    (h : start + count ≤ history.values.length) {stop : ℤ} (hstop : stop = start + count) :
    sumSamples history start stop =
      some (((history.values.drop start).take count).sum, (count : ℤ)) := by
  have hcount : (min stop history.size - start).toNat = count := by
    unfold Samples.size
    omega
  unfold sumSamples
  rw [hcount]
  refine foldlM_range (fun k => (((history.values.drop start).take k).sum, (k : ℤ)))
    fun k hk => ?_
  have hindex : start + k < history.values.length := by omega
  have hread : rowAt history.values ((start : ℤ) + (k : ℤ)) = some history.values[start + k] := by
    rw [← Nat.cast_add, rowAt_natCast, List.getElem?_eq_getElem hindex]
  have htake : (history.values.drop start).take (k + 1) =
      (history.values.drop start).take k ++ [history.values[start + k]] := by
    rw [List.take_add_one, List.getElem?_drop, List.getElem?_eq_getElem hindex]
    rfl
  dsimp only
  rw [hread, htake, List.sum_append, List.sum_singleton]
  push_cast
  rfl

/-- The inner loop of bucket `k` adds up slice `k`. -/
theorem sumSamples_slice {history : History} {count parts k : ℕ} (hle : parts ≤ count)
    (hcount : count ≤ history.values.length) (hk : k < parts) :
    sumSamples history (history.size - count + k * count / parts)
        (max (history.size - count + k * count / parts + 1)
          (history.size - count + ((k : ℤ) + 1) * count / parts)) =
      some ((slice (newest count history) parts k).sum,
        ((slice (newest count history) parts k).length : ℤ)) := by
  have hlength := length_newest hcount
  have hlt := cut_lt_cut_succ (by omega) hle k
  have hend : cut count parts (k + 1) ≤ count := cut_le hk
  have hstart : history.size - (count : ℤ) + (k : ℤ) * (count : ℤ) / (parts : ℤ) =
      ((history.values.length - count + cut count parts k : ℕ) : ℤ) := by
    unfold Samples.size cut
    push_cast [hcount]
    rfl
  have hstop : history.size - (count : ℤ) + ((k : ℤ) + 1) * (count : ℤ) / (parts : ℤ) =
      ((history.values.length - count + cut count parts (k + 1) : ℕ) : ℤ) := by
    unfold Samples.size cut
    push_cast [hcount]
    rfl
  have hslice : slice (newest count history) parts k =
      (history.values.drop (history.values.length - count + cut count parts k)).take
        (cut count parts (k + 1) - cut count parts k) := by
    rw [slice, hlength, newest, List.drop_drop]
  rw [hstart, hstop, length_slice hk, hlength, hslice]
  exact sumSamples_eq history _ _ (by omega) (by omega)

theorem resampleHistory_eq {history : History} {count parts : ℕ} (hpos : 0 < parts)
    (hle : parts ≤ count) (hcount : count ≤ history.values.length) :
    resampleHistory history parts count = some ((historySlices history count parts).map mean) := by
  have hne : ¬ ((parts : ℤ) ≤ 0 ∨ (count : ℤ) ≤ 0 ∨ history.values = []) := by
    have hvalues : history.values ≠ [] := List.ne_nil_of_length_pos (by omega)
    rintro (h | h | h)
    · omega
    · omega
    · exact hvalues h
  have hvisible : min (count : ℤ) history.size = count := by
    unfold Samples.size
    omega
  unfold resampleHistory
  rw [if_neg hne, hvisible, Int.toNat_natCast]
  have hresult : (historySlices history count parts).map mean =
      (List.range parts).map (fun k => mean (slice (newest count history) parts k)) ++
        List.replicate (parts - parts) 0 := by
    rw [historySlices, slices, List.map_map, Nat.sub_self, List.replicate_zero, List.append_nil]
    rfl
  rw [hresult]
  refine foldlM_range (fun k =>
    (List.range k).map (fun k => mean (slice (newest count history) parts k)) ++
      List.replicate (parts - k) 0) fun k hk => ?_
  have hslice : slice (newest count history) parts k ≠ [] :=
    slice_ne_nil (hle.trans_eq (length_newest hcount).symm) hk
  have hlength := List.length_pos_iff.mpr hslice
  dsimp only
  rw [sumSamples_slice hle hcount hk, Option.bind_eq_bind, Option.bind_some, if_pos (by omega),
    setAt_replicate (by simp) (by omega), List.range_succ, List.map_append, Int.cast_natCast]
  rfl

/-! ## The columns -/

/-- Two series, one in every other column. -/
def interleave (first second : List ℚ) : List ℚ :=
  (first.zip second).flatMap fun pair => [pair.1, pair.2]

theorem length_interleave {first second : List ℚ} (h : first.length = second.length) :
    (interleave first second).length = 2 * first.length := by
  unfold interleave
  rw [List.length_flatMap]
  simp [h, Nat.mul_comm]

theorem interleave_take_succ {first second : List ℚ} {k : ℕ} (hfirst : k < first.length)
    (hsecond : k < second.length) :
    interleave (first.take (k + 1)) (second.take (k + 1)) =
      interleave (first.take k) (second.take k) ++ [first[k], second[k]] := by
  have htake : ∀ (l : List ℚ) (hl : k < l.length), l.take (k + 1) = l.take k ++ [l[k]] := by
    intro l hl
    rw [List.take_add_one, List.getElem?_eq_getElem hl]
    rfl
  have hlength : (first.take k).length = (second.take k).length := by
    rw [List.length_take, List.length_take]
    omega
  unfold interleave
  rw [htake first hfirst, htake second hsecond, List.zip_append hlength, List.flatMap_append]
  rfl

/-- Column pair `k` holds element `k` of both series. -/
theorem getElem?_interleave {first second : List ℚ} (h : first.length = second.length) (k : ℕ) :
    (interleave first second)[2 * k]? = first[k]? ∧
      (interleave first second)[2 * k + 1]? = second[k]? := by
  induction first generalizing second k with
  | nil =>
    obtain rfl := List.length_eq_zero_iff.mp h.symm
    exact ⟨rfl, rfl⟩
  | cons a first ih =>
    cases second with
    | nil => cases h
    | cons b second =>
      cases k with
      | zero => exact ⟨rfl, rfl⟩
      | succ k => exact ih (Nat.succ.inj h) k

theorem mem_interleave {first second : List ℚ} (h : first.length = second.length) {value : ℚ} :
    value ∈ interleave first second ↔ value ∈ first ∨ value ∈ second := by
  constructor
  · intro hvalue
    obtain ⟨pair, hpair, hin⟩ := List.mem_flatMap.mp hvalue
    obtain ⟨hleft, hright⟩ := List.of_mem_zip hpair
    simp only [List.mem_cons, List.not_mem_nil, or_false] at hin
    rcases hin with rfl | rfl
    · exact .inl hleft
    · exact .inr hright
  · rintro (hvalue | hvalue)
    · obtain ⟨k, hk⟩ := List.mem_iff_getElem?.mp hvalue
      exact List.mem_of_getElem? ((getElem?_interleave h k).1.trans hk)
    · obtain ⟨k, hk⟩ := List.mem_iff_getElem?.mp hvalue
      exact List.mem_of_getElem? ((getElem?_interleave h k).2.trans hk)

/-- The last loop fills the columns of the buckets, from the first one on. -/
theorem fill_columns {first second : List ℚ} (start cols : ℕ) {parts : ℕ}
    (hfirst : first.length = parts) (hsecond : second.length = parts)
    (hcols : (start + parts) * 2 ≤ cols) :
    (List.range parts).foldlM
        (fun plotData (sample : ℕ) => do
          let offset := ((start : ℤ) + (sample : ℤ)) * 2
          let plotData ← setAt plotData offset (← rowAt first sample)
          setAt plotData (offset + 1) (← rowAt second sample)) (List.replicate cols 0) =
      some (List.replicate (2 * start) 0 ++ interleave first second ++
        List.replicate (cols - (start + parts) * 2) 0) := by
  have hstart : List.replicate cols (0 : ℚ) =
      List.replicate (2 * start) 0 ++ interleave (first.take 0) (second.take 0) ++
        List.replicate (cols - (start + 0) * 2) 0 := by
    simp only [List.take_zero, interleave, List.zip_nil_left, List.flatMap_nil, List.append_nil,
      List.replicate_append_replicate]
    congr 1
    omega
  have hfull : List.replicate (2 * start) 0 ++ interleave first second ++
      List.replicate (cols - (start + parts) * 2) 0 =
        List.replicate (2 * start) 0 ++ interleave (first.take parts) (second.take parts) ++
          List.replicate (cols - (start + parts) * 2) 0 := by
    rw [List.take_of_length_le hfirst.le, List.take_of_length_le hsecond.le]
  rw [hstart, hfull]
  refine foldlM_range (fun k => List.replicate (2 * start) 0 ++
    interleave (first.take k) (second.take k) ++ List.replicate (cols - (start + k) * 2) 0)
    fun k hk => ?_
  have hreadFirst : rowAt first ((k : ℕ) : ℤ) = some first[k] := by
    rw [rowAt_natCast, List.getElem?_eq_getElem (by omega)]
  have hreadSecond : rowAt second ((k : ℕ) : ℤ) = some second[k] := by
    rw [rowAt_natCast, List.getElem?_eq_getElem (by omega)]
  have hlength : (List.replicate (2 * start) (0 : ℚ) ++
      interleave (first.take k) (second.take k)).length = (start + k) * 2 := by
    rw [List.length_append, List.length_replicate, length_interleave (by simp; omega),
      List.length_take]
    omega
  dsimp only
  rw [hreadFirst, hreadSecond]
  simp only [Option.bind_eq_bind, Option.bind_some]
  rw [setAt_replicate (by rw [hlength]; push_cast; rfl) (by omega), Option.bind_some,
    setAt_replicate (by rw [List.length_append, hlength]; push_cast; rfl) (by omega),
    interleave_take_succ (by omega) (by omega), Nat.sub_sub, Nat.sub_sub]
  simp [Nat.add_mul, Nat.add_assoc]

/-! ## The plot data -/

/-- The newest samples that both series have, a minute's worth at most. -/
def rawSamples (gpuHistory secondaryHistory : History) (refreshMs : ℤ) : ℕ :=
  min (min gpuHistory.values.length secondaryHistory.values.length)
    (max 1 (60000 / max 100 refreshMs)).toNat

/-- The number of seconds that the axis is labelled with. -/
def labelSeconds (refreshMs cols : ℤ) : ℤ :=
  min 60 (max 1 ((toInt32 (cols / 2 * refreshMs)).tdiv 1000))

section Populate
variable (gpuHistory secondaryHistory : History) (refreshMs : ℤ)

theorem rawSamples_le : rawSamples gpuHistory secondaryHistory refreshMs ≤ gpuHistory.values.length ∧
    rawSamples gpuHistory secondaryHistory refreshMs ≤ secondaryHistory.values.length := by
  unfold rawSamples
  omega

/-- All reads and writes are inside, and the means of the slices stand in the last pairs of columns. -/
theorem populateNvtopPlotData_eq {cols : ℕ} (hcols : 2 ≤ cols) {count parts : ℕ}
    (hcount : count = rawSamples gpuHistory secondaryHistory refreshMs)
    (hparts : parts = min (cols / 2) count) :
    populateNvtopPlotData gpuHistory secondaryHistory refreshMs cols =
      some ⟨List.replicate (2 * (cols / 2 - parts)) 0 ++
          interleave ((historySlices gpuHistory count parts).map mean)
            ((historySlices secondaryHistory count parts).map mean) ++
          List.replicate (cols - 2 * (cols / 2)) 0,
        labelSeconds refreshMs cols, cols⟩ := by
  obtain ⟨hgpu, hsecondary⟩ := rawSamples_le gpuHistory secondaryHistory refreshMs
  rw [← hcount] at hgpu hsecondary
  have hpoints : max 1 ((cols : ℤ) / 2) = ((cols / 2 : ℕ) : ℤ) := by omega
  have havailable : min (min gpuHistory.size secondaryHistory.size)
      (max 1 (60000 / max 100 refreshMs)) = (count : ℤ) := by
    rw [hcount]
    unfold Samples.size rawSamples
    omega
  have hused : max 0 (cols : ℤ) = cols := by omega
  have hlabel : (((cols / 2 : ℕ) : ℤ)) * refreshMs = (cols : ℤ) / 2 * refreshMs := by push_cast; rfl
  unfold populateNvtopPlotData
  dsimp only
  rw [if_neg (by omega), hpoints, havailable, hused, Int.toNat_natCast, hlabel]
  by_cases hnone : count = 0
  · have hzero : parts = 0 := by omega
    rw [if_pos (by omega), hzero]
    simp only [historySlices, slices, List.range_zero, List.map_nil, interleave, List.zip_nil_left,
      List.flatMap_nil, List.append_nil, List.replicate_append_replicate, labelSeconds]
    have hall : 2 * (cols / 2 - 0) + (cols - 2 * (cols / 2)) = cols := by omega
    rw [hall]
  · have hpos : 0 < parts := by omega
    have hbuckets : min ((cols / 2 : ℕ) : ℤ) (count : ℤ) = (parts : ℤ) := by omega
    have hstart : ((cols / 2 : ℕ) : ℤ) - (parts : ℤ) = ((cols / 2 - parts : ℕ) : ℤ) := by omega
    have hfill := fill_columns (cols / 2 - parts) cols (length_means gpuHistory count parts)
      (length_means secondaryHistory count parts) (by omega)
    have hrest : cols - (cols / 2 - parts + parts) * 2 = cols - 2 * (cols / 2) := by omega
    rw [if_neg (by omega), hbuckets, resampleHistory_eq hpos (by omega) hgpu,
      resampleHistory_eq hpos (by omega) hsecondary]
    simp only [Option.bind_eq_bind, Option.bind_some, Option.pure_def, Int.toNat_natCast, hstart]
    simp only [Option.bind_eq_bind] at hfill
    rw [hfill, Option.bind_some, hrest]
    rfl

/-- The column pairs at the right hold the means of the slices, the first series in the even ones. -/
theorem getElem?_columns {cols count parts : ℕ} (first second : History) {bucket : ℕ}
    (hbucket : bucket < parts) (after : List ℚ) :
    (List.replicate (2 * (cols / 2 - parts)) 0 ++
        interleave ((historySlices first count parts).map mean)
          ((historySlices second count parts).map mean) ++ after)[2 * (cols / 2 - parts + bucket)]? =
        some (mean (slice (newest count first) parts bucket)) ∧
      (List.replicate (2 * (cols / 2 - parts)) 0 ++
        interleave ((historySlices first count parts).map mean)
          ((historySlices second count parts).map mean) ++
            after)[2 * (cols / 2 - parts + bucket) + 1]? =
        some (mean (slice (newest count second) parts bucket)) := by
  have hmean : ∀ history : History, ((historySlices history count parts).map mean)[bucket]? =
      some (mean (slice (newest count history) parts bucket)) := by
    intro history
    rw [historySlices, slices, List.map_map, List.getElem?_map, List.getElem?_range hbucket]
    rfl
  have hboth : ((historySlices first count parts).map mean).length =
      ((historySlices second count parts).map mean).length := by
    rw [length_means, length_means]
  have hwidth := length_interleave hboth
  rw [length_means] at hwidth
  obtain ⟨heven, hodd⟩ := getElem?_interleave hboth bucket
  rw [hmean first] at heven
  rw [hmean second] at hodd
  have hplace : 2 * (cols / 2 - parts + bucket) =
      2 * (cols / 2 - parts) + 2 * bucket := Nat.mul_add _ _ _
  constructor
  · rw [List.getElem?_append_left (by rw [List.length_append, List.length_replicate]; omega),
      List.getElem?_append_right (by rw [List.length_replicate]; omega), List.length_replicate, hplace,
      Nat.add_sub_cancel_left, heven]
  · rw [List.getElem?_append_left (by rw [List.length_append, List.length_replicate]; omega),
      List.getElem?_append_right (by rw [List.length_replicate]; omega), List.length_replicate, hplace,
      Nat.add_assoc, Nat.add_sub_cancel_left, hodd]

/-- Non-empty consecutive slices that cover the newest samples, each once and in order. -/
structure Covers (history : History) (count parts : ℕ) (pieces : List (List ℚ)) : Prop where
  parts : pieces.length = parts
  nonempty : ∀ piece ∈ pieces, piece ≠ []
  covered : pieces.flatten = newest count history

theorem historySlices_covers {history : History} {count parts : ℕ} (hle : parts ≤ count)
    (hempty : parts = 0 → count = 0) (hcount : count ≤ history.values.length) :
    Covers history count parts (historySlices history count parts) where
  parts := length_slices
  nonempty := by
    intro piece hpiece
    obtain ⟨k, hk, rfl⟩ := List.mem_map.mp hpiece
    exact slice_ne_nil (by rw [length_newest hcount]; exact hle) (List.mem_range.mp hk)
  covered := by
    by_cases hzero : parts = 0
    · obtain rfl := hempty hzero
      rw [hzero, newest, Nat.sub_zero, List.drop_length]
      rfl
    · exact flatten_slices (Nat.pos_of_ne_zero hzero)

theorem historySlices_lengths {count parts : ℕ} {first second : History}
    (hfirst : count ≤ first.values.length) (hsecond : count ≤ second.values.length) :
    (historySlices first count parts).map List.length =
      (historySlices second count parts).map List.length := by
  unfold historySlices slices
  rw [List.map_map, List.map_map]
  refine List.map_congr_left fun k hk => ?_
  have hk' := List.mem_range.mp hk
  show (slice _ parts k).length = (slice _ parts k).length
  rw [length_slice hk', length_slice hk', length_newest hfirst, length_newest hsecond]

/-- No access is out of bounds. The newest samples of both series are cut into slices of the same
lengths, and their means stand in the last pairs of columns, with zeros before them and in the column
that an odd width leaves over. -/
theorem populate_plots_recent_past {cols : ℤ} (hcols : 2 ≤ cols) :
    ∃ data first second,
      populateNvtopPlotData gpuHistory secondaryHistory refreshMs cols = some data ∧
      Covers gpuHistory (rawSamples gpuHistory secondaryHistory refreshMs)
        (min (cols.toNat / 2) (rawSamples gpuHistory secondaryHistory refreshMs)) first ∧
      Covers secondaryHistory (rawSamples gpuHistory secondaryHistory refreshMs)
        (min (cols.toNat / 2) (rawSamples gpuHistory secondaryHistory refreshMs)) second ∧
      first.map List.length = second.map List.length ∧
      data.values = List.replicate (2 * (cols.toNat / 2 - first.length)) 0 ++
        interleave (first.map mean) (second.map mean) ++
          List.replicate (cols.toNat - 2 * (cols.toNat / 2)) 0 := by
  obtain ⟨hgpu, hsecondary⟩ := rawSamples_le gpuHistory secondaryHistory refreshMs
  lift cols to ℕ using by omega
  rw [Int.toNat_natCast]
  have hdata := populateNvtopPlotData_eq gpuHistory secondaryHistory refreshMs
    (by omega : 2 ≤ cols) rfl rfl
  refine ⟨_, _, _, hdata, historySlices_covers (by omega) (by omega) hgpu,
    historySlices_covers (by omega) (by omega) hsecondary,
    historySlices_lengths hgpu hsecondary, ?_⟩
  rw [historySlices, length_slices]

end Populate

def threeSamples : History := ⟨[1, 2, 4], by decide⟩

/-- Three samples in the two buckets of five columns. -/
theorem populate_plots_recent_past_three :
    ∃ data first second,
      populateNvtopPlotData threeSamples threeSamples 1000 5 = some data ∧
      Covers threeSamples (rawSamples threeSamples threeSamples 1000)
        (min ((5 : ℤ).toNat / 2) (rawSamples threeSamples threeSamples 1000)) first ∧
      Covers threeSamples (rawSamples threeSamples threeSamples 1000)
        (min ((5 : ℤ).toNat / 2) (rawSamples threeSamples threeSamples 1000)) second ∧
      first.map List.length = second.map List.length ∧
      data.values = List.replicate (2 * ((5 : ℤ).toNat / 2 - first.length)) 0 ++
        interleave (first.map mean) (second.map mean) ++
          List.replicate ((5 : ℤ).toNat - 2 * ((5 : ℤ).toNat / 2)) 0 :=
  populate_plots_recent_past threeSamples threeSamples 1000 (by decide)

def oneSample : History := ⟨[40], by decide⟩

/-- With nine columns the newest mean does not stand at the right edge: a zero does. -/
theorem populate_plots_odd_width :
    ¬ ∀ (gpuHistory secondaryHistory : History) (refreshMs cols : ℤ), 2 ≤ cols →
      ∃ data first second,
        populateNvtopPlotData gpuHistory secondaryHistory refreshMs cols = some data ∧
        Covers gpuHistory (rawSamples gpuHistory secondaryHistory refreshMs)
          (min (cols.toNat / 2) (rawSamples gpuHistory secondaryHistory refreshMs)) first ∧
        Covers secondaryHistory (rawSamples gpuHistory secondaryHistory refreshMs)
          (min (cols.toNat / 2) (rawSamples gpuHistory secondaryHistory refreshMs)) second ∧
        data.values = List.replicate (cols.toNat - 2 * first.length) 0 ++
          interleave (first.map mean) (second.map mean) := by
  intro h
  obtain ⟨data, first, second, hdata, hfirst, hsecond, hvalues⟩ :=
    h oneSample oneSample 1000 9 (by decide)
  have hraw : rawSamples oneSample oneSample 1000 = 1 := by decide
  have hone : ∀ pieces, Covers oneSample 1 1 pieces → pieces = [[40]] := by
    intro pieces hpieces
    obtain ⟨piece, rfl⟩ := List.length_eq_one_iff.mp hpieces.parts
    have hflat : [piece].flatten = [40] := hpieces.covered
    rw [List.flatten_singleton] at hflat
    rw [hflat]
  rw [hraw] at hfirst hsecond
  obtain rfl := hone first hfirst
  obtain rfl := hone second hsecond
  have hshown := populateNvtopPlotData_eq oneSample oneSample 1000 (by decide : 2 ≤ 9) rfl rfl
  obtain rfl := Option.some.inj (hdata.symm.trans hshown)
  have hlast := congrArg List.getLast? hvalues
  revert hlast
  decide +kernel

end Mtop
