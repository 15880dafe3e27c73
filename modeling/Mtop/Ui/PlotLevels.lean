import Mathlib.Algebra.Order.BigOperators.Group.List
import Mtop.Ui.PlotData

/-! The levels of the plotted columns. On a scale of 0 to 100 they stay in the window, which the GPU
panel keeps to; the byte rates of the System I/O view are not on that scale. -/
namespace Mtop
open Cxx
set_option autoImplicit false

/-! ## One level -/

/-- The value is less than half a row above the top of the scale. -/
def BelowTop (lastRow : ℤ) (value : ℚ) : Prop := 2 * lastRow * value < 100 * (2 * lastRow + 1)

theorem belowTop_of_le {lastRow : ℤ} (hrow : 0 ≤ lastRow) {value : ℚ} (h : value ≤ 100) :
    BelowTop lastRow value := by
  have hrow' : (0 : ℚ) ≤ lastRow := by exact_mod_cast hrow
  have hmul : lastRow * value ≤ lastRow * 100 := mul_le_mul_of_nonneg_left h hrow'
  unfold BelowTop
  linarith

theorem toUnsigned_clamp_le {lastRow n : ℤ} (hrow : 0 ≤ lastRow) (hfits : lastRow < 2 ^ 31)
    (hn : n ≤ lastRow) :
    (toUnsigned (clamp n (-2 ^ 31) (2 ^ 31 - 1)) : ℤ) ≤ lastRow ↔ 0 ≤ n := by
  unfold toUnsigned clamp
  split_ifs <;> omega

theorem level_le_iff {lastRow : ℤ} (hrow : 0 < lastRow) (hfits : lastRow < 2 ^ 31) {value : ℚ}
    (hvalue : 0 ≤ value) :
    (toUnsigned (nvtopDataLevel lastRow value (100 / lastRow)) : ℤ) ≤ lastRow ↔
      BelowTop lastRow value := by
  have hrow' : (0 : ℚ) < lastRow := by exact_mod_cast hrow
  have hscaled : value / (100 / lastRow) = value * lastRow / 100 := by
    rw [div_div_eq_mul_div]
  have hnonneg : 0 ≤ value * lastRow / 100 := by positivity
  have hround := llround_nonneg hnonneg
  have hle := llround_le_iff hnonneg (lastRow - 1 / 2)
  rw [sub_add_cancel, Int.floor_intCast] at hle
  unfold nvtopDataLevel
  rw [hscaled, toUnsigned_clamp_le hrow.le hfits (by omega), sub_nonneg, ← Int.cast_le (R := ℚ), hle]
  unfold BelowTop
  constructor <;> intro h <;> linarith

/-! ## The levels of a plot -/

def LevelsInside (plot : Plot) : Prop := ∀ level ∈ plot.levels 2, (level : ℤ) ≤ plot.lastRow

/-- Every cell is in a row and a column of the window. -/
def CellsInside (plot : Plot) : Prop :=
  ∀ cell ∈ plot.draw 2, (cell.1 : ℤ) < plot.rows ∧ (cell.2 : ℤ) < plot.cols

/-- A window with room for a scale, and two columns of data or more, as many as it has itself. -/
structure WellSized (plot : Plot) : Prop where
  rows : 2 ≤ plot.rows ∧ plot.rows < 2 ^ 31
  cols : (plot.data.length : ℤ) = plot.cols
  data : 2 ≤ plot.data.length

namespace WellSized
variable {plot : Plot} (h : WellSized plot)
include h

theorem drawn : ¬ (plot.data.length = 0 ∨ 2 = 0 ∨ plot.lastRow ≤ 0 ∨ plot.cols ≤ 0) := by
  obtain ⟨⟨hrows, -⟩, hcols, hdata⟩ := h
  unfold Plot.lastRow
  omega

theorem columns_eq : plot.columns = List.range plot.data.length := by
  unfold Plot.columns
  have hcols := h.cols
  congr 1
  omega

theorem mem_levels {level : ℕ} :
    level ∈ plot.levels 2 ↔ ∃ index < plot.data.length, plot.level index = level := by
  have hdata := h.data
  unfold Plot.levels
  rw [if_neg h.drawn, h.columns_eq]
  simp only [List.mem_append, List.mem_map, List.mem_range]
  constructor
  · rintro (⟨index, hindex, rfl⟩ | ⟨index, hindex, rfl⟩)
    · exact ⟨index, by omega, rfl⟩
    · exact ⟨index, hindex, rfl⟩
  · rintro ⟨index, hindex, rfl⟩
    exact .inr ⟨index, hindex, rfl⟩

/-- The levels are inside exactly when no value is above the scale. -/
theorem levelsInside_iff (hvalues : ∀ value ∈ plot.data, 0 ≤ value) :
    LevelsInside plot ↔ ∀ value ∈ plot.data, BelowTop plot.lastRow value := by
  obtain ⟨hrows, hfits⟩ := h.rows
  have hrow : 0 < plot.lastRow := by
    unfold Plot.lastRow
    omega
  have hbound : plot.lastRow < 2 ^ 31 := by
    unfold Plot.lastRow
    omega
  have hlevel : ∀ index, (hindex : index < plot.data.length) →
      ((plot.level index : ℤ) ≤ plot.lastRow ↔ BelowTop plot.lastRow plot.data[index]) := by
    intro index hindex
    have hget : plot.data.getD index 0 = plot.data[index] := by
      rw [List.getD_eq_getElem?_getD, List.getElem?_eq_getElem hindex, Option.getD_some]
    unfold Plot.level
    rw [hget]
    exact level_le_iff hrow hbound (hvalues _ (List.getElem_mem hindex))
  constructor
  · intro hinside value hvalue
    obtain ⟨index, hindex, rfl⟩ := List.mem_iff_getElem.mp hvalue
    exact (hlevel index hindex).mp (hinside _ (h.mem_levels.mpr ⟨index, hindex, rfl⟩))
  · intro hbelow level hmem
    obtain ⟨index, hindex, rfl⟩ := h.mem_levels.mp hmem
    exact (hlevel index hindex).mpr (hbelow _ (List.getElem_mem hindex))

end WellSized

/-! ## The cells of a plot -/

section Cells
variable {plot : Plot} {numLines : ℕ} {lvlBefore : List ℕ} {index : ℕ}

/-- The cells of a column lie between the levels before and after it. -/
theorem drawColumn_inside {limit : ℕ} (hbefore : ∀ level ∈ lvlBefore, level ≤ limit)
    (hnow : plot.level index ≤ limit) :
    ∀ cell ∈ (plot.drawColumn numLines lvlBefore index).1, cell.1 ≤ limit ∧ cell.2 = index := by
  have hget : ∀ line, lvlBefore.getD line 0 ≤ limit := by
    intro line
    rw [List.getD_eq_getElem?_getD]
    cases hline : lvlBefore[line]? with
    | none => exact Nat.zero_le limit
    | some level => exact hbefore level (List.mem_of_getElem? hline)
  have hold := hget (index % numLines)
  intro cell hcell
  unfold Plot.drawColumn at hcell
  dsimp only at hcell
  split at hcell
  · simp only [List.mem_append, List.mem_cons, List.mem_map, List.mem_range, List.not_mem_nil,
      or_false] at hcell
    rcases hcell with ((rfl | rfl) | ⟨step, hstep, rfl⟩) | ⟨_, ⟨other, -, rfl⟩, rfl⟩
    · exact ⟨by dsimp only; omega, rfl⟩
    · exact ⟨by dsimp only; omega, rfl⟩
    · exact ⟨by dsimp only; omega, rfl⟩
    · exact ⟨hget other, rfl⟩
  · simp only [List.mem_cons, List.mem_map, List.mem_filter] at hcell
    rcases hcell with rfl | ⟨_, ⟨⟨other, -, rfl⟩, -⟩, rfl⟩
    · exact ⟨hnow, rfl⟩
    · exact ⟨hget other, rfl⟩

/-- The level of a column is one of its cells. -/
theorem level_mem_drawColumn :
    (plot.level index, index) ∈ (plot.drawColumn numLines lvlBefore index).1 := by
  unfold Plot.drawColumn
  dsimp only
  split
  · refine List.mem_append_left _ (List.mem_append_left _ ?_)
    rcases le_total (lvlBefore.getD (index % numLines) 0) (plot.level index) with hle | hle
    · rw [max_eq_right hle]
      exact List.mem_cons_of_mem _ List.mem_cons_self
    · rw [min_eq_right hle]
      exact List.mem_cons_self
  · exact List.mem_cons_self

theorem drawColumns_inside {limit : ℕ} {columns : List ℕ}
    (hbefore : ∀ level ∈ lvlBefore, level ≤ limit)
    (hlevels : ∀ column ∈ columns, plot.level column ≤ limit) :
    ∀ cell ∈ plot.drawColumns numLines lvlBefore columns, cell.1 ≤ limit ∧ cell.2 ∈ columns := by
  induction columns generalizing lvlBefore with
  | nil => exact fun cell hcell => nomatch hcell
  | cons column columns ih =>
    have hnow := hlevels column List.mem_cons_self
    have hafter : ∀ level ∈ (plot.drawColumn numLines lvlBefore column).2, level ≤ limit := by
      intro level hlevel
      rcases List.mem_or_eq_of_mem_set hlevel with hold | rfl
      · exact hbefore level hold
      · exact hnow
    intro cell hcell
    rcases List.mem_append.mp hcell with hcell | hcell
    · obtain ⟨hrow, hcol⟩ := drawColumn_inside hbefore hnow cell hcell
      exact ⟨hrow, hcol ▸ List.mem_cons_self⟩
    · obtain ⟨hrow, hcol⟩ :=
        ih hafter (fun other hother => hlevels other (List.mem_cons_of_mem column hother)) cell hcell
      exact ⟨hrow, List.mem_cons_of_mem column hcol⟩

theorem level_mem_drawColumns {columns : List ℕ} {column : ℕ} (h : column ∈ columns) :
    (plot.level column, column) ∈ plot.drawColumns numLines lvlBefore columns := by
  induction columns generalizing lvlBefore with
  | nil => cases h
  | cons first columns ih =>
    rcases List.mem_cons.mp h with rfl | h
    · exact List.mem_append_left _ level_mem_drawColumn
    · exact List.mem_append_right _ (ih h)

end Cells

/-- The cells are inside exactly when the levels are. -/
theorem WellSized.cellsInside_iff {plot : Plot} (h : WellSized plot) :
    CellsInside plot ↔ LevelsInside plot := by
  obtain ⟨hrows, -⟩ := h.rows
  have hcols := h.cols
  have hdraw : plot.draw 2 = plot.drawColumns 2 ((List.range 2).map plot.level) plot.columns ++
      plot.drawLegend 2 := if_neg h.drawn
  constructor
  · intro hcells level hlevel
    obtain ⟨index, hindex, rfl⟩ := h.mem_levels.mp hlevel
    have hcolumn : index ∈ plot.columns := by
      rw [h.columns_eq]
      exact List.mem_range.mpr hindex
    have hcell := hcells _ (hdraw ▸ List.mem_append_left _ (level_mem_drawColumns hcolumn))
    unfold Plot.lastRow
    omega
  · intro hlevels cell hcell
    have hlevel : ∀ index < plot.data.length, plot.level index ≤ plot.lastRow.toNat := by
      intro index hindex
      have hinside := hlevels _ (h.mem_levels.mpr ⟨index, hindex, rfl⟩)
      omega
    have hdata := h.data
    rw [hdraw] at hcell
    rcases List.mem_append.mp hcell with hcell | hcell
    · have hbefore : ∀ level ∈ (List.range 2).map plot.level, level ≤ plot.lastRow.toNat := by
        intro level hmem
        obtain ⟨index, hindex, rfl⟩ := List.mem_map.mp hmem
        exact hlevel index ((List.mem_range.mp hindex).trans_le hdata)
      have hcolumns : ∀ column ∈ plot.columns, plot.level column ≤ plot.lastRow.toNat := by
        intro column hcolumn
        rw [h.columns_eq] at hcolumn
        exact hlevel column (List.mem_range.mp hcolumn)
      obtain ⟨hrow, hcol⟩ := drawColumns_inside hbefore hcolumns cell hcell
      rw [h.columns_eq, List.mem_range] at hcol
      unfold Plot.lastRow at hrow
      omega
    · unfold Plot.drawLegend at hcell
      simp only [List.mem_flatMap, List.mem_map, List.mem_range] at hcell
      obtain ⟨row, hrow, col, hcol, rfl⟩ := hcell
      unfold Plot.lastRow at hrow
      dsimp only
      omega

/-! ## The values of a plot -/

/-- The slices that are plotted in so many columns, of both series. -/
def plottedSlices (first second : History) (refreshMs : ℤ) (cols : ℕ) : List (List ℚ) :=
  let count := rawSamples first second refreshMs
  let parts := min (cols / 2) count
  historySlices first count parts ++ historySlices second count parts

section Values
variable (first second : History) (refreshMs : ℤ) {cols : ℕ}

/-- A plotted value is the mean of a slice, or the 0 of a column before the first one. -/
theorem populate_values (hcols : 2 ≤ cols) :
    ∃ data, populateNvtopPlotData first second refreshMs cols = some data ∧
      data.plotColsUsed = cols ∧ data.values.length = cols ∧
      (∀ value ∈ data.values,
        value = 0 ∨ value ∈ (plottedSlices first second refreshMs cols).map mean) ∧
      ∀ piece ∈ plottedSlices first second refreshMs cols, mean piece ∈ data.values := by
  have hboth : ((historySlices first (rawSamples first second refreshMs)
      (min (cols / 2) (rawSamples first second refreshMs))).map mean).length =
        ((historySlices second (rawSamples first second refreshMs)
          (min (cols / 2) (rawSamples first second refreshMs))).map mean).length := by
    rw [length_means, length_means]
  refine ⟨_, populateNvtopPlotData_eq first second refreshMs hcols rfl rfl, rfl, ?_, ?_, ?_⟩
  · rw [List.length_append, List.length_append, length_interleave hboth, length_means,
      List.length_replicate, List.length_replicate]
    omega
  · intro value hvalue
    rcases List.mem_append.mp hvalue with hvalue | hvalue
    · rcases List.mem_append.mp hvalue with hvalue | hvalue
      · exact .inl (List.eq_of_mem_replicate hvalue)
      · rw [mem_interleave hboth, ← List.mem_append, ← List.map_append] at hvalue
        exact .inr hvalue
    · exact .inl (List.eq_of_mem_replicate hvalue)
  · intro piece hpiece
    refine List.mem_append_left _ (List.mem_append_right _ ?_)
    rw [mem_interleave hboth, ← List.mem_append, ← List.map_append]
    exact List.mem_map_of_mem hpiece

theorem mem_of_mem_plottedSlices {piece : List ℚ}
    (h : piece ∈ plottedSlices first second refreshMs cols) :
    piece ≠ [] ∧ ((∀ sample ∈ piece, sample ∈ first.values) ∨
      ∀ sample ∈ piece, sample ∈ second.values) := by
  obtain ⟨hfirst, hsecond⟩ := rawSamples_le first second refreshMs
  have hpiece : ∀ history : History,
      rawSamples first second refreshMs ≤ history.values.length →
      piece ∈ historySlices history (rawSamples first second refreshMs)
        (min (cols / 2) (rawSamples first second refreshMs)) →
      piece ≠ [] ∧ ∀ sample ∈ piece, sample ∈ history.values := by
    intro history hcount hmem
    obtain ⟨k, hk, rfl⟩ := List.mem_map.mp hmem
    refine ⟨slice_ne_nil (by rw [length_newest hcount]; exact min_le_right _ _)
      (List.mem_range.mp hk), fun sample hsample => ?_⟩
    exact List.mem_of_mem_drop (List.mem_of_mem_drop (List.mem_of_mem_take hsample))
  rcases List.mem_append.mp h with h | h
  · exact ⟨(hpiece first hfirst h).1, .inl (hpiece first hfirst h).2⟩
  · exact ⟨(hpiece second hsecond h).1, .inr (hpiece second hsecond h).2⟩

end Values

theorem mean_nonneg {piece : List ℚ} (h : ∀ sample ∈ piece, 0 ≤ sample) : 0 ≤ mean piece :=
  div_nonneg (List.sum_nonneg h) (Nat.cast_nonneg _)

theorem mean_le {piece : List ℚ} {limit : ℚ} (hlimit : 0 ≤ limit)
    (h : ∀ sample ∈ piece, sample ≤ limit) : mean piece ≤ limit := by
  have hsum := List.sum_le_card_nsmul piece limit h
  rw [nsmul_eq_mul] at hsum
  exact div_le_of_le_mul₀ (Nat.cast_nonneg _) hlimit (by linarith)

/-- The average of the slice is less than half a row above the top of the scale. -/
def SliceFits (lastRow : ℤ) (piece : List ℚ) : Prop :=
  2 * lastRow * piece.sum < 100 * (2 * lastRow + 1) * piece.length

theorem belowTop_mean_iff (lastRow : ℤ) {piece : List ℚ} (h : piece ≠ []) :
    BelowTop lastRow (mean piece) ↔ SliceFits lastRow piece := by
  have hpos : (0 : ℚ) < piece.length := by exact_mod_cast List.length_pos_iff.mpr h
  unfold BelowTop SliceFits mean
  rw [← mul_div_assoc, div_lt_iff₀ hpos]

/-! ## The views -/

/-- Every level and every cell is inside the window. -/
def DrawnInside (plot : Plot) : Prop := LevelsInside plot ∧ CellsInside plot

section Views
variable {first second : History} (refreshMs : ℤ)

theorem populate_drawnInside_iff (hfirst : ∀ sample ∈ first.values, 0 ≤ sample)
    (hsecond : ∀ sample ∈ second.values, 0 ≤ sample) {rows cols : ℤ}
    (hrows : 2 ≤ rows ∧ rows < 2 ^ 31) (hcols : 2 ≤ cols) (legend : List Text) :
    ∃ data, populateNvtopPlotData first second refreshMs cols = some data ∧
      data.plotColsUsed = cols ∧
      (DrawnInside ⟨rows, cols, data.values, legend⟩ ↔
        ∀ piece ∈ plottedSlices first second refreshMs cols.toNat, SliceFits (rows - 1) piece) := by
  lift cols to ℕ using by omega
  rw [Int.toNat_natCast]
  obtain ⟨data, hdata, hused, hlength, hfrom, hto⟩ :=
    populate_values first second refreshMs (by omega : 2 ≤ cols)
  have hsized : WellSized ⟨rows, cols, data.values, legend⟩ :=
    ⟨hrows, by rw [hlength], by rw [hlength]; omega⟩
  have hmean : ∀ piece ∈ plottedSlices first second refreshMs cols, 0 ≤ mean piece := by
    intro piece hpiece
    refine mean_nonneg fun sample hsample => ?_
    rcases (mem_of_mem_plottedSlices first second refreshMs hpiece).2 with hin | hin
    · exact hfirst sample (hin sample hsample)
    · exact hsecond sample (hin sample hsample)
  have hvalues : ∀ value ∈ data.values, 0 ≤ value := by
    intro value hvalue
    rcases hfrom value hvalue with rfl | hvalue
    · exact le_refl 0
    · obtain ⟨piece, hpiece, rfl⟩ := List.mem_map.mp hvalue
      exact hmean piece hpiece
  have hfits : ∀ piece ∈ plottedSlices first second refreshMs cols,
      (BelowTop (rows - 1) (mean piece) ↔ SliceFits (rows - 1) piece) := fun piece hpiece =>
    belowTop_mean_iff (rows - 1) (mem_of_mem_plottedSlices first second refreshMs hpiece).1
  refine ⟨data, hdata, hused, ?_⟩
  rw [DrawnInside, hsized.cellsInside_iff, and_self, hsized.levelsInside_iff hvalues]
  constructor
  · intro hbelow piece hpiece
    exact (hfits piece hpiece).mp (hbelow _ (hto piece hpiece))
  · intro hslices value hvalue
    rcases hfrom value hvalue with rfl | hvalue
    · exact belowTop_of_le (by dsimp only [Plot.lastRow]; omega) (by decide)
    · obtain ⟨piece, hpiece, rfl⟩ := List.mem_map.mp hvalue
      exact (hfits piece hpiece).mpr (hslices piece hpiece)

/-- Samples on the scale keep to the window. -/
theorem sliceFits_of_le {lastRow : ℤ} (hrow : 0 ≤ lastRow) {piece : List ℚ} (hne : piece ≠ [])
    (h : ∀ sample ∈ piece, sample ≤ 100) : SliceFits lastRow piece :=
  (belowTop_mean_iff lastRow hne).mp (belowTop_of_le hrow (mean_le (by decide) h))

end Views

/-! ## The GPU panel -/

theorem le_foldl_max (l : List ℚ) (first : ℚ) :
    first ≤ l.foldl max first ∧ ∀ value ∈ l, value ≤ l.foldl max first := by
  induction l generalizing first with
  | nil => exact ⟨le_refl first, fun value hvalue => nomatch hvalue⟩
  | cons head l ih =>
    obtain ⟨hmax, hrest⟩ := ih (max first head)
    refine ⟨(le_max_left first head).trans hmax, fun value hvalue => ?_⟩
    rcases List.mem_cons.mp hvalue with rfl | hvalue
    · exact (le_max_right first value).trans hmax
    · exact hrest value hvalue

theorem powerAxisMax_bounds (systemPowerWatts : ℚ) (powerHistory : List ℚ) :
    0 < powerAxisMax systemPowerWatts powerHistory ∧
      ∀ sample ∈ powerHistory, sample ≤ powerAxisMax systemPowerWatts powerHistory := by
  obtain ⟨hfirst, hsamples⟩ := le_foldl_max powerHistory (max 5 systemPowerWatts)
  have hceil := Int.le_ceil (powerHistory.foldl max (max 5 systemPowerWatts) / 5)
  have hmax : powerHistory.foldl max (max 5 systemPowerWatts) ≤
      powerAxisMax systemPowerWatts powerHistory := by
    unfold powerAxisMax
    linarith
  have hfive : (5 : ℚ) ≤ max 5 systemPowerWatts := le_max_left _ _
  exact ⟨by linarith, fun sample hsample => (hsamples sample hsample).trans hmax⟩

theorem scaledPower_bounds (systemPowerWatts : ℚ) {powerHistory : History}
    (h : ∀ sample ∈ powerHistory.values, 0 ≤ sample) :
    ∀ sample ∈ (scaledPower systemPowerWatts powerHistory).values, 0 ≤ sample ∧ sample ≤ 100 := by
  obtain ⟨hpos, hle⟩ := powerAxisMax_bounds systemPowerWatts powerHistory.values
  intro scaled hscaled
  obtain ⟨sample, hsample, rfl⟩ := List.mem_map.mp hscaled
  have hnonneg := h sample hsample
  rw [if_pos hpos]
  constructor
  · positivity
  · rw [div_le_iff₀ hpos, mul_comm]
    exact mul_le_mul_of_nonneg_left (hle sample hsample) (by norm_num)

theorem drawGpu_inside (window : WindowSize) (systemPowerWatts : ℚ)
    {gpuHistory powerHistory : History} (refreshMs : ℤ) (legend : List Text)
    (hgpu : ∀ sample ∈ gpuHistory.values, 0 ≤ sample ∧ sample ≤ 100)
    (hpower : ∀ sample ∈ powerHistory.values, 0 ≤ sample) :
    ∃ plots, drawGpu window systemPowerWatts gpuHistory powerHistory refreshMs legend = some plots ∧
      ∀ plot ∈ plots, DrawnInside plot := by
  have hscaled := scaledPower_bounds systemPowerWatts hpower
  have hrows : 2 ≤ max 4 (window.maxY - 2) ∧ max 4 (window.maxY - 2) < 2 ^ 31 := by
    have hfits := window.fits
    omega
  obtain ⟨data, hdata, hused, hinside⟩ := populate_drawnInside_iff refreshMs
    (fun sample hsample => (hgpu sample hsample).1)
    (fun sample hsample => (hscaled sample hsample).1) hrows
    (by omega : 2 ≤ max 8 (window.maxX - 8 - 7 - 1)) legend
  have hcols : max 2 data.plotColsUsed = max 8 (window.maxX - 8 - 7 - 1) := by omega
  have hdrawn : DrawnInside ⟨max 4 (window.maxY - 2), max 8 (window.maxX - 8 - 7 - 1), data.values,
      legend⟩ := by
    refine hinside.mpr fun piece hpiece => ?_
    obtain ⟨hne, hfrom⟩ := mem_of_mem_plottedSlices _ _ _ hpiece
    refine sliceFits_of_le (by omega) hne fun sample hsample => ?_
    rcases hfrom with hfrom | hfrom
    · exact (hgpu sample (hfrom sample hsample)).2
    · exact (hscaled sample (hfrom sample hsample)).2
  unfold drawGpu
  dsimp only
  rw [hdata, Option.bind_eq_bind, Option.bind_some, hcols]
  split
  · exact ⟨_, rfl, fun plot hplot => List.mem_singleton.mp hplot ▸ hdrawn⟩
  · exact ⟨[], rfl, fun plot hplot => nomatch hplot⟩

/-! ## The System I/O view -/

/-- In every plotted slice of the byte rates the average is on the scale of the plot. -/
def RatesFit (window : WindowSize) (history : IoHistory) (refreshMs : ℤ) : Prop :=
  ∀ size, systemIoPlotSize window = some size → ∀ entry ∈ history.series,
    ∀ piece ∈ plottedSlices entry.1.1.history entry.1.2.history refreshMs size.2.toNat,
      SliceFits (size.1 - 1) piece

theorem systemIoPlotSize_bounds {window : WindowSize} {size : ℤ × ℤ}
    (h : systemIoPlotSize window = some size) : 2 ≤ size.1 ∧ size.1 < 2 ^ 31 ∧ 2 ≤ size.2 := by
  have hfits := window.fits
  unfold systemIoPlotSize at h
  dsimp only at h
  split at h
  · cases h
  · split at h
    · obtain rfl := Option.some.inj h
      dsimp only
      omega
    · cases h

theorem Rates.history_nonneg (rates : Rates) : ∀ sample ∈ rates.history.values, 0 ≤ sample := by
  intro sample hsample
  obtain ⟨rate, -, rfl⟩ := List.mem_map.mp hsample
  exact Nat.cast_nonneg _

theorem systemIoPlot_inside_iff {size : ℤ × ℤ} (hrows : 2 ≤ size.1 ∧ size.1 < 2 ^ 31)
    (hcols : 2 ≤ size.2) (series : Rates × Rates) (refreshMs : ℤ) (legend : List Text) :
    ∃ plot, systemIoPlot size series refreshMs legend = some plot ∧
      (DrawnInside plot ↔
        ∀ piece ∈ plottedSlices series.1.history series.2.history refreshMs size.2.toNat,
          SliceFits (size.1 - 1) piece) := by
  obtain ⟨data, hdata, -, hinside⟩ := populate_drawnInside_iff refreshMs series.1.history_nonneg
    series.2.history_nonneg hrows hcols legend
  refine ⟨⟨size.1, size.2, data.values, legend⟩, ?_, hinside⟩
  unfold systemIoPlot
  rw [hdata]
  rfl

theorem drawSystemIoView_inside_iff (window : WindowSize) (history : IoHistory) (refreshMs : ℤ) :
    ∃ plots, drawSystemIoView window history refreshMs = some plots ∧
      ((∀ plot ∈ plots, DrawnInside plot) ↔ RatesFit window history refreshMs) := by
  unfold drawSystemIoView RatesFit
  cases hsize : systemIoPlotSize window with
  | none =>
    refine ⟨[], rfl, ?_, ?_⟩
    · exact fun _ size h => nomatch h
    · exact fun _ plot h => nomatch h
  | some size =>
    obtain ⟨hrow, hfits, hcol⟩ := systemIoPlotSize_bounds hsize
    have hplot := fun entry : (Rates × Rates) × List Text =>
      systemIoPlot_inside_iff ⟨hrow, hfits⟩ hcol entry.1 refreshMs entry.2
    obtain ⟨plots, hplots, hmem⟩ := exists_mapM (l := history.series)
      fun entry _ => (hplot entry).imp fun plot h => h.1
    refine ⟨plots, hplots, ?_, ?_⟩
    · intro hinside other hother entry hentry
      obtain rfl := Option.some.inj hother
      obtain ⟨plot, hfound, hiff⟩ := hplot entry
      exact hiff.mp (hinside plot ((hmem plot).mpr ⟨entry, hentry, hfound⟩))
    · intro hrates plot hin
      obtain ⟨entry, hentry, hfound⟩ := (hmem plot).mp hin
      obtain ⟨other, hother, hiff⟩ := hplot entry
      obtain rfl := Option.some.inj (hfound.symm.trans hother)
      exact hiff.mpr (hrates size rfl entry hentry)

/-- The GPU panel draws inside its window; the plots of the System I/O view are inside theirs exactly
when the averaged byte rates stay on the scale. -/
theorem plots_inside_iff (gpuWindow ioWindow : WindowSize) (systemPowerWatts : ℚ)
    (gpuHistory powerHistory : History) (ioHistory : IoHistory) (refreshMs : ℤ) (legend : List Text)
    (hgpu : ∀ sample ∈ gpuHistory.values, 0 ≤ sample ∧ sample ≤ 100)
    (hpower : ∀ sample ∈ powerHistory.values, 0 ≤ sample) :
    ∃ gpuPlots ioPlots,
      drawGpu gpuWindow systemPowerWatts gpuHistory powerHistory refreshMs legend = some gpuPlots ∧
      drawSystemIoView ioWindow ioHistory refreshMs = some ioPlots ∧
      (∀ plot ∈ gpuPlots, DrawnInside plot) ∧
      ((∀ plot ∈ ioPlots, DrawnInside plot) ↔ RatesFit ioWindow ioHistory refreshMs) := by
  obtain ⟨gpuPlots, hgpuPlots, hinside⟩ :=
    drawGpu_inside gpuWindow systemPowerWatts refreshMs legend hgpu hpower
  obtain ⟨ioPlots, hioPlots, hiff⟩ := drawSystemIoView_inside_iff ioWindow ioHistory refreshMs
  exact ⟨gpuPlots, ioPlots, hgpuPlots, hioPlots, hinside, hiff⟩

/-! ## A rate above the scale -/

def terminalWindow : WindowSize := ⟨24, 80, by decide⟩

def noRate : Rates := ⟨[0], by decide⟩

/-- One sample: a million bytes a second read from the disk. -/
def busyDisk : IoHistory := ⟨⟨[1000000], by decide⟩, noRate, noRate, noRate, noRate, noRate⟩

def busyGpu : History := ⟨[50], by decide⟩

theorem plots_inside_iff_busyDisk :
    ∃ gpuPlots ioPlots,
      drawGpu terminalWindow 30 busyGpu busyGpu 1000 [] = some gpuPlots ∧
      drawSystemIoView terminalWindow busyDisk 1000 = some ioPlots ∧
      (∀ plot ∈ gpuPlots, DrawnInside plot) ∧
      ((∀ plot ∈ ioPlots, DrawnInside plot) ↔ RatesFit terminalWindow busyDisk 1000) :=
  plots_inside_iff terminalWindow terminalWindow 30 busyGpu busyGpu busyDisk 1000 []
    (by decide) (by decide)

/-- The level 4 - 40000 wraps around. -/
theorem disk_rate_leaves_window :
    ∃ plot plots, drawSystemIoView terminalWindow busyDisk 1000 = some (plot :: plots) ∧
      plot.lastRow = 4 ∧ plot.level 72 = 4294927300 ∧ ¬ LevelsInside plot := by
  have hview : (drawSystemIoView terminalWindow busyDisk 1000).map (fun plots => plots.map fun plot =>
      (plot.lastRow, plot.level 72, decide (plot.level 72 ∈ plot.levels 2))) =
        some [(4, 4294927300, true), (4, 4, true), (4, 4, true)] := by
    decide +kernel
  obtain ⟨plots, hplots, hlevels⟩ := Option.map_eq_some_iff.mp hview
  obtain ⟨plot, rest, rfl, hplot, -⟩ := List.map_eq_cons_iff.mp hlevels
  obtain ⟨hrow, hlevel⟩ := Prod.mk.inj hplot
  obtain ⟨hlevel, hmem⟩ := Prod.mk.inj hlevel
  refine ⟨plot, rest, hplots, hrow, hlevel, fun hinside => ?_⟩
  have hle := hinside _ (of_decide_eq_true hmem)
  omega

end Mtop
