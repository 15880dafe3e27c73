import Mtop.Library.CxxRound
import Mtop.Library.Slices
import Mtop.Snapshot

/-! The line plots of the GPU panel and of the System I/O view: the histories, the plot data resampled
from them, and what is drawn of it. A double is its exact value. -/
namespace Mtop
open Cxx
set_option autoImplicit false

/-! ## Histories -/

/-- The samples that the main loop keeps, oldest first. Their number fits an `int`. -/
structure Samples (α : Type) where
  values : List α
  fits : values.length < 2 ^ 31

abbrev History := Samples ℚ

section Samples
variable {α β : Type}

/-- `static_cast<int>(history.size())`. -/
def Samples.size (history : Samples α) : ℤ := history.values.length

def Samples.map (f : α → β) (history : Samples α) : Samples β :=
  ⟨history.values.map f, by simpa using history.fits⟩

def maxHistory (refreshMs : ℤ) : ℕ := (max 60 (60000 / max 100 refreshMs)).toNat

def trimHistory (history : List α) (limit : ℕ) : List α := history.drop (history.length - limit)

theorem length_trimHistory (history : List α) (limit : ℕ) :
    (trimHistory history limit).length ≤ limit := by
  rw [trimHistory, List.length_drop]
  omega

theorem maxHistory_le (refreshMs : ℤ) : maxHistory refreshMs ≤ 600 := by
  have hdiv : 60000 / max 100 refreshMs ≤ 600 := by
    rw [Int.ediv_le_iff_le_mul (by omega)]
    omega
  unfold maxHistory
  omega

/-- What every frame does to a history: at most 600 samples are left. -/
def Samples.push (history : Samples α) (refreshMs : ℤ) (sample : α) : Samples α where
  values := trimHistory (history.values ++ [sample]) (maxHistory refreshMs)
  fits := ((length_trimHistory _ _).trans (maxHistory_le refreshMs)).trans_lt (by decide)

end Samples

/-- Byte rates. -/
abbrev Rates := Samples UInt64

def Rates.history (rates : Rates) : History := rates.map fun rate => (rate.toNat : ℚ)

structure IoHistory where
  diskRead : Rates
  diskWrite : Rates
  pagingIn : Rates
  pagingOut : Rates
  netRx : Rates
  netTx : Rates

def appendIoHistory (history : IoHistory) (snapshot : SystemSnapshot) (refreshMs : ℤ) : IoHistory where
  diskRead := history.diskRead.push refreshMs snapshot.diskIo.readBytesPerSec
  diskWrite := history.diskWrite.push refreshMs snapshot.diskIo.writeBytesPerSec
  pagingIn := history.pagingIn.push refreshMs snapshot.pagingIo.pageinsBytesPerSec
  pagingOut := history.pagingOut.push refreshMs snapshot.pagingIo.pageoutsBytesPerSec
  netRx := history.netRx.push refreshMs snapshot.networkIo.rxBytesPerSec
  netTx := history.netTx.push refreshMs snapshot.networkIo.txBytesPerSec

/-! ## Plot data -/

/-- The inner loop: sum and count of the samples from `start` on. Every read is checked. -/
def sumSamples (history : History) (start stop : ℤ) : Option (ℚ × ℤ) :=
  (List.range (min stop history.size - start).toNat).foldlM
    (fun (total : ℚ × ℤ) (index : ℕ) => do
      let sample ← rowAt history.values (start + index)
      return (total.1 + sample, total.2 + 1)) (0, 0)

def resampleHistory (history : History) (sampleCount maxVisibleRawSamples : ℤ) : Option (List ℚ) :=
  let samples := List.replicate sampleCount.toNat 0
  if sampleCount ≤ 0 ∨ maxVisibleRawSamples ≤ 0 ∨ history.values = [] then some samples
  else
    let visibleRawSamples := min maxVisibleRawSamples history.size
    let start := history.size - visibleRawSamples
    (List.range sampleCount.toNat).foldlM
      (fun samples (bucket : ℕ) => do
        let sliceStart := start + bucket * visibleRawSamples / sampleCount
        let sliceEnd := start + (bucket + 1) * visibleRawSamples / sampleCount
        let (sum, count) ← sumSamples history sliceStart (max (sliceStart + 1) sliceEnd)
        if count > 0 then setAt samples bucket (sum / count) else some samples) samples

structure PlotData where
  values : List ℚ
  visibleSeconds : ℤ
  plotColsUsed : ℤ

/-- Two series, one in every other column; the product for the seconds is cut to an `int`. -/
def populateNvtopPlotData (gpuHistory secondaryHistory : History) (refreshMs maxPlotCols : ℤ) :
    Option PlotData :=
  let plotColsUsed := max 0 maxPlotCols
  let plotData := List.replicate plotColsUsed.toNat 0
  if maxPlotCols ≤ 0 then some ⟨plotData, 0, plotColsUsed⟩
  else
    let samplePoints := max 1 (maxPlotCols / 2)
    let maxVisibleRawSamples := max 1 (60000 / max 100 refreshMs)
    let rawSamplesAvailable := min (min gpuHistory.size secondaryHistory.size) maxVisibleRawSamples
    let visibleSeconds := min 60 (max 1 ((toInt32 (samplePoints * refreshMs)).tdiv 1000))
    if rawSamplesAvailable ≤ 0 then some ⟨plotData, visibleSeconds, plotColsUsed⟩
    else do
      let bucketsToFill := min samplePoints rawSamplesAvailable
      let utilValues ← resampleHistory gpuHistory bucketsToFill rawSamplesAvailable
      let secondaryValues ← resampleHistory secondaryHistory bucketsToFill rawSamplesAvailable
      let sampleStart := samplePoints - bucketsToFill
      let values ← (List.range bucketsToFill.toNat).foldlM
        (fun plotData (sample : ℕ) => do
          let offset := (sampleStart + sample) * 2
          let plotData ← setAt plotData offset (← rowAt utilValues sample)
          setAt plotData (offset + 1) (← rowAt secondaryValues sample)) plotData
      return ⟨values, visibleSeconds, plotColsUsed⟩

/-! ## Drawing -/

/-- `static_cast<unsigned>` of an `int`. -/
def toUnsigned (n : ℤ) : ℕ := (n % 2 ^ 32).toNat

/-- The cast to `int` saturates. -/
def nvtopDataLevel (rows : ℤ) (data increment : ℚ) : ℤ :=
  clamp (rows - llround (data / increment)) (-2 ^ 31) (2 ^ 31 - 1)

/-- A plot window with the data and the legend that it gets. -/
structure Plot where
  rows : ℤ
  cols : ℤ
  data : List ℚ
  legend : List Text

namespace Plot

/-- The last row, which is the 0 of the scale. -/
def lastRow (plot : Plot) : ℤ := plot.rows - 1

/-- The level of a column, stored as unsigned. -/
def level (plot : Plot) (index : ℕ) : ℕ :=
  toUnsigned (nvtopDataLevel plot.lastRow (plot.data.getD index 0) (100 / plot.lastRow))

/-- The two loops visit these columns in order, the lines in turn. -/
def columns (plot : Plot) : List ℕ := List.range (min plot.data.length plot.cols.toNat)

/-- The cells drawn for one column, as row and column, and the levels of the lines after it. -/
def drawColumn (plot : Plot) (numLines : ℕ) (lvlBefore : List ℕ) (index : ℕ) :
    List (ℕ × ℕ) × List ℕ :=
  let line := index % numLines
  let lvlNow := plot.level index
  let lvlOld := lvlBefore.getD line 0
  let others := ((List.range numLines).filter (· ≠ line)).map fun other => lvlBefore.getD other 0
  let cells :=
    if lvlOld ≠ lvlNow then
      let bottom := min lvlOld lvlNow
      let top := max lvlOld lvlNow
      [(bottom, index), (top, index)] ++
        (List.range (top - bottom - 1)).map (fun step => (bottom + 1 + step, index)) ++
        others.map fun other => (other, index)
    else (lvlNow, index) :: (others.filter (· ≠ lvlNow)).map fun other => (other, index)
  (cells, lvlBefore.set line lvlNow)

def drawColumns (plot : Plot) (numLines : ℕ) : List ℕ → List ℕ → List (ℕ × ℕ)
  | _, [] => []
  | lvlBefore, index :: rest =>
    let (cells, lvlBefore) := drawColumn plot numLines lvlBefore index
    cells ++ drawColumns plot numLines lvlBefore rest

/-- The legend at the left, one line of text a row. -/
def drawLegend (plot : Plot) (numLines : ℕ) : List (ℕ × ℕ) :=
  (List.range (min numLines plot.lastRow.toNat)).flatMap fun row =>
    (List.range (min (plot.legend.getD row []).length plot.cols.toNat)).map fun col => (row, col)

/-- `nvtop_line_plot_port`: the cells it writes. -/
def draw (plot : Plot) (numLines : ℕ) : List (ℕ × ℕ) :=
  if plot.data.length = 0 ∨ numLines = 0 ∨ plot.lastRow ≤ 0 ∨ plot.cols ≤ 0 then []
  else
    drawColumns plot numLines ((List.range numLines).map plot.level) plot.columns ++
      drawLegend plot numLines

/-- The levels it computes: of the first columns before the loops, and of every column in them. -/
def levels (plot : Plot) (numLines : ℕ) : List ℕ :=
  if plot.data.length = 0 ∨ numLines = 0 ∨ plot.lastRow ≤ 0 ∨ plot.cols ≤ 0 then []
  else (List.range numLines).map plot.level ++ plot.columns.map plot.level

end Plot

/-! ## The views -/

/-- What `getmaxyx` says of a window. -/
structure WindowSize where
  maxY : ℤ
  maxX : ℤ
  fits : maxY < 2 ^ 31 ∧ maxX < 2 ^ 31

/-- Whether `derwin` finds room in the window for one of this size at this place. -/
def WindowSize.holds (window : WindowSize) (rows cols y x : ℤ) : Bool :=
  y + rows ≤ window.maxY && x + cols ≤ window.maxX

def powerAxisMax (systemPowerWatts : ℚ) (powerHistory : List ℚ) : ℚ :=
  ⌈powerHistory.foldl max (max 5 systemPowerWatts) / 5⌉ * 5

def scaledPower (systemPowerWatts : ℚ) (powerHistory : History) : History :=
  powerHistory.map fun sample =>
    if powerAxisMax systemPowerWatts powerHistory.values > 0 then
      sample * 100 / powerAxisMax systemPowerWatts powerHistory.values
    else 0

/-- The plot of `draw_gpu`, with any legend. -/
def drawGpu (window : WindowSize) (systemPowerWatts : ℚ) (gpuHistory powerHistory : History)
    (refreshMs : ℤ) (legend : List Text) : Option (List Plot) := do
  let plotRows := max 4 (window.maxY - 2)
  let plotCols := max 8 (window.maxX - 8 - 7 - 1)
  let data ← populateNvtopPlotData gpuHistory (scaledPower systemPowerWatts powerHistory) refreshMs
    plotCols
  let windowCols := max 2 data.plotColsUsed
  if window.holds plotRows windowCols 1 8 then return [⟨plotRows, windowCols, data.values, legend⟩]
  else return []

/-- Rows and columns of each plot of `draw_system_io_view`, if it draws any. -/
def systemIoPlotSize (window : WindowSize) : Option (ℤ × ℤ) :=
  let plotRows := max 3 ((window.maxY - 9) / 3)
  let plotCols := max 8 (window.maxX - 6)
  if window.maxY < 12 || window.maxX < 32 then none
  else if window.holds plotRows plotCols 6 3 && window.holds plotRows plotCols (6 + plotRows) 3 &&
      window.holds plotRows plotCols (6 + plotRows * 2) 3 then some (plotRows, plotCols)
  else none

def systemIoPlot (size : ℤ × ℤ) (series : Rates × Rates) (refreshMs : ℤ) (legend : List Text) :
    Option Plot := do
  let data ← populateNvtopPlotData series.1.history series.2.history refreshMs size.2
  return ⟨size.1, size.2, data.values, legend⟩

/-- The two series of every plot, with their legend. -/
def IoHistory.series (history : IoHistory) : List ((Rates × Rates) × List Text) :=
  [((history.diskRead, history.diskWrite), [str "  Disk read", str "  Disk write"]),
    ((history.pagingIn, history.pagingOut), [str "  Page in", str "  Page out"]),
    ((history.netRx, history.netTx), [str "  Net rx", str "  Net tx"])]

/-- The plots of `draw_system_io_view`. -/
def drawSystemIoView (window : WindowSize) (history : IoHistory) (refreshMs : ℤ) :
    Option (List Plot) :=
  match systemIoPlotSize window with
  | none => some []
  | some size => history.series.mapM fun (series, legend) => systemIoPlot size series refreshMs legend

end Mtop
