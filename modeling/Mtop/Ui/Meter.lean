import Mtop.Library.Strip
import Mtop.Platform.RootMetricsParser
import Mtop.Snapshot

/-! The meters (`draw_stacked_meter`, `draw_meter` and the bars of `draw_memory`): eighths of a cell are
painted from the left, segment after segment, until the meter is full. -/
namespace Mtop
open Cxx
set_option autoImplicit false

inductive TextAttr where
  | normal | dim | bold
  deriving DecidableEq

structure MeterSegment where
  percent : Double := 0
  colorPair : ℤ := 1
  attr : TextAttr := .normal

/-- A cell of the screen: the colour and the attribute, and how many eighths its block has. -/
structure MeterCell where
  paint : Option (ℤ × TextAttr) := none
  eighths : ℕ := 0
  deriving DecidableEq

/-- `static_cast<int>(std::round(percent / 100.0 * width * 8.0))` -/
def meterUnits (width : ℕ) (percent : Double) : ℤ :=
  roundToInt (((percent.divRounded 100).mulRounded (Double.ofNat width)).mulRounded 8)

/-- `std::max(0, ..)` of it. -/
def segmentUnits (width : ℕ) (segment : MeterSegment) : ℕ := (meterUnits width segment.percent).toNat

def drawSegmentCell (segments : List MeterSegment) (cell : Strip.Cell ℕ) : MeterCell :=
  match cell.owner with
  | some index =>
    ⟨segments[index]?.map fun segment => (segment.colorPair, segment.attr), cell.filled⟩
  | none => {}

/-- The two loops of `draw_stacked_meter`. -/
def drawStackedMeter (width : ℕ) (segments : List MeterSegment) : List MeterCell :=
  let strip := segments.zipIdx.foldl
    (fun strip part => Strip.fill 8 width part.2 (segmentUnits width part.1) strip)
    (Strip.blank width)
  strip.cells.map (drawSegmentCell segments)

def drawMeter (width : ℕ) (percent : Double) (fillColorPair : ℤ) : List MeterCell :=
  let totalUnits := clamp (meterUnits width percent) 0 (width * 8)
  (List.range width).map fun (i : ℕ) =>
    let cellUnits := clamp (totalUnits - i * 8) 0 8
    if cellUnits > 0 then ⟨some (fillColorPair, .normal), cellUnits.toNat⟩ else {}

/-! ## Memory -/

/-- `bytes` in percent of the memory, each operation rounded. -/
def memoryShare (snapshot : SystemSnapshot) (bytes : UInt64) : Double :=
  if snapshot.memoryTotalBytes > 0 then
    ((Double.ofNat bytes.toNat).rounded.mulRounded 100).divRounded
      (Double.ofNat snapshot.memoryTotalBytes.toNat).rounded
  else 0

/-- The segments that are always shown. -/
def usedSegments (snapshot : SystemSnapshot) : List MeterSegment :=
  [⟨memoryShare snapshot snapshot.memoryWiredBytes, 7, .normal⟩,
    ⟨memoryShare snapshot snapshot.memoryActiveBytes, 9, .dim⟩]

def cachedSegments (snapshot : SystemSnapshot) : List MeterSegment :=
  [⟨memoryShare snapshot snapshot.memorySpeculativeBytes, 8, .normal⟩,
    ⟨memoryShare snapshot snapshot.memoryPurgeableBytes, 10, .bold⟩,
    ⟨memoryShare snapshot snapshot.memoryCompressedBytes, 11, .normal⟩,
    ⟨memoryShare snapshot snapshot.memoryInactiveBytes, 12, .normal⟩]

def memorySegments (snapshot : SystemSnapshot) (showCachedMemory : Bool) : List MeterSegment :=
  if showCachedMemory then usedSegments snapshot ++ cachedSegments snapshot
  else usedSegments snapshot

/-! ## What is painted -/

/-- The segment of every eighth, in order. -/
def unitOwners (width : ℕ) (segments : List MeterSegment) : List ℕ :=
  segments.zipIdx.flatMap fun part => List.replicate (segmentUnits width part.1) part.2

theorem drawStackedMeter_eq (width : ℕ) (segments : List MeterSegment) :
    drawStackedMeter width segments =
      (Strip.cellsOf 8 width ((unitOwners width segments).take (width * 8))).map
        (drawSegmentCell segments) := by
  have hfold := Strip.foldl_fill width (by decide : 0 < 8)
    (segments.zipIdx.map fun part => (segmentUnits width part.1, part.2)) []
  rw [Strip.painted_nil, List.foldl_map, List.nil_append, List.flatMap_map] at hfold
  unfold drawStackedMeter
  dsimp only
  rw [hfold]
  rfl

theorem length_unitOwners (width : ℕ) (segments : List MeterSegment) :
    (unitOwners width segments).length = (segments.map (segmentUnits width)).sum := by
  have hunits : segments.zipIdx.map (fun part => segmentUnits width part.1) =
      segments.map (segmentUnits width) := by
    calc segments.zipIdx.map (fun part => segmentUnits width part.1)
        = (segments.zipIdx.map Prod.fst).map (segmentUnits width) := by
          rw [List.map_map]
          rfl
      _ = segments.map (segmentUnits width) := by rw [List.zipIdx_map_fst]
  unfold unitOwners
  rw [List.length_flatMap]
  simp only [List.length_replicate]
  rw [hunits]

theorem unitOwners_lt {width : ℕ} {segments : List MeterSegment} {index : ℕ}
    (h : index ∈ unitOwners width segments) : index < segments.length := by
  obtain ⟨part, hpart, hindex⟩ := List.mem_flatMap.mp h
  obtain rfl := List.eq_of_mem_replicate hindex
  exact (List.mem_zipIdx' hpart).1

/-- Segments behind the others are painted behind the others. -/
theorem unitOwners_append (width : ℕ) (segments more : List MeterSegment) :
    ∃ rest, unitOwners width (segments ++ more) = unitOwners width segments ++ rest := by
  unfold unitOwners
  rw [List.zipIdx_append, List.flatMap_append]
  exact ⟨_, rfl⟩

theorem drawSegmentCell_eighths (segments : List MeterSegment) (owners : List ℕ) (i : ℕ) :
    (drawSegmentCell segments (Strip.cellAt 8 owners i)).eighths =
      (Strip.cellAt 8 owners i).filled := by
  unfold drawSegmentCell Strip.cellAt
  dsimp only
  cases hlast : ((owners.drop (i * 8)).take 8).getLast? with
  | some index => rfl
  | none => rw [List.getLast?_eq_none_iff.mp hlast, List.length_nil]

theorem getElem?_drawStackedMeter (width : ℕ) (segments : List MeterSegment) (i : ℕ) :
    (drawStackedMeter width segments)[i]? =
      if i < width then some (drawSegmentCell segments
        (Strip.cellAt 8 ((unitOwners width segments).take (width * 8)) i))
      else none := by
  rw [drawStackedMeter_eq, Strip.cellsOf, List.getElem?_map, List.getElem?_map]
  split_ifs with hi
  · rw [List.getElem?_range hi]
    rfl
  · rw [List.getElem?_eq_none (by rw [List.length_range]; omega)]
    rfl

theorem sum_eighths (width : ℕ) (segments : List MeterSegment) :
    ((drawStackedMeter width segments).map (·.eighths)).sum =
      min (segments.map (segmentUnits width)).sum (width * 8) := by
  have hcells : (drawStackedMeter width segments).map (·.eighths) =
      (Strip.cellsOf 8 width ((unitOwners width segments).take (width * 8))).map Strip.Cell.filled := by
    rw [drawStackedMeter_eq, Strip.cellsOf, List.map_map, List.map_map, List.map_map]
    exact List.map_congr_left fun i _ => drawSegmentCell_eighths segments _ i
  have hfits : ((unitOwners width segments).take (width * 8)).length ≤ width * 8 :=
    List.length_take_le _ _
  rw [hcells, Strip.sum_filled hfits, List.length_take, length_unitOwners, Nat.min_comm]

/-- A full cell of the first segments looks the same whatever segments come behind them. -/
theorem drawStackedMeter_append {width : ℕ} {segments : List MeterSegment}
    (more : List MeterSegment) {i : ℕ} (h : (i + 1) * 8 ≤ (segments.map (segmentUnits width)).sum) :
    (drawStackedMeter width (segments ++ more))[i]? = (drawStackedMeter width segments)[i]? := by
  rw [getElem?_drawStackedMeter, getElem?_drawStackedMeter]
  split_ifs with hi
  · obtain ⟨rest, hrest⟩ := unitOwners_append width segments more
    have hlength := length_unitOwners width segments
    have hfull : (i + 1) * 8 ≤ ((unitOwners width segments).take (width * 8)).length := by
      rw [List.length_take]
      omega
    have hcell : Strip.cellAt 8 ((unitOwners width (segments ++ more)).take (width * 8)) i =
        Strip.cellAt 8 ((unitOwners width segments).take (width * 8)) i := by
      rw [hrest, List.take_append, Strip.cellAt_of_full hfull]
    have hmem : ∀ index ∈ (Strip.cellAt 8 ((unitOwners width segments).take (width * 8)) i).owner,
        index < segments.length := by
      intro index hindex
      have hslice := List.mem_of_getLast? hindex
      exact unitOwners_lt (List.mem_of_mem_take (List.mem_of_mem_drop (List.mem_of_mem_take hslice)))
    rw [hcell]
    unfold drawSegmentCell
    cases howner : (Strip.cellAt 8 ((unitOwners width segments).take (width * 8)) i).owner with
    | none => rfl
    | some index =>
      dsimp only
      rw [List.getElem?_append_left (hmem index howner)]
  · rfl

/-- A plain meter is a stacked one with a single segment. -/
theorem drawMeter_eq (width : ℕ) (percent : Double) (fillColorPair : ℤ) :
    drawMeter width percent fillColorPair =
      drawStackedMeter width [⟨percent, fillColorPair, .normal⟩] := by
  have howners : (unitOwners width [⟨percent, fillColorPair, .normal⟩]).take (width * 8) =
      List.replicate (min (width * 8) (meterUnits width percent).toNat) 0 := by
    rw [← List.take_replicate]
    exact congrArg (List.take (width * 8)) (List.append_nil _)
  refine List.ext_getElem? fun i => ?_
  rw [getElem?_drawStackedMeter, howners, drawMeter, List.getElem?_map]
  split_ifs with hi
  · rw [List.getElem?_range hi, Option.map_some]
    refine congrArg some ?_
    have hslice : ((List.replicate (min (width * 8) (meterUnits width percent).toNat) 0).drop
        (i * 8)).take 8 =
          List.replicate (min 8 (min (width * 8) (meterUnits width percent).toNat - i * 8)) 0 := by
      rw [List.drop_replicate, List.take_replicate]
    have hunits : clamp (clamp (meterUnits width percent) 0 (width * 8) - i * 8) 0 8 =
        (min 8 (min (width * 8) (meterUnits width percent).toNat - i * 8) : ℕ) := by
      unfold clamp
      omega
    unfold drawSegmentCell Strip.cellAt
    dsimp only
    rw [hslice, hunits, List.getLast?_replicate, List.length_replicate]
    by_cases hempty : min 8 (min (width * 8) (meterUnits width percent).toNat - i * 8) = 0
    · rw [hempty]
      rfl
    · rw [if_pos (by omega), if_neg hempty, Int.toNat_natCast]
      rfl
  · rw [List.getElem?_eq_none (by rw [List.length_range]; omega)]
    rfl

/-- What a meter shows: the eighths of the segments in turn, each cell painted as a whole in the colour of
the segment that owns the last of its eighths; together as many eighths as the segments have or as there is
room for. Further segments leave the full cells of the first ones as they are, so the cached memory those of
the used memory, and the plain meter is the stacked one with one segment. -/
theorem meter_shows_segments (width : ℕ) (segments more : List MeterSegment) :
    (∀ i < width, (drawStackedMeter width segments)[i]? = some (drawSegmentCell segments
      (Strip.cellAt 8 ((unitOwners width segments).take (width * 8)) i))) ∧
    ((drawStackedMeter width segments).map (·.eighths)).sum =
      min (segments.map (segmentUnits width)).sum (width * 8) ∧
    (∀ i, (i + 1) * 8 ≤ (segments.map (segmentUnits width)).sum →
      (drawStackedMeter width (segments ++ more))[i]? = (drawStackedMeter width segments)[i]?) ∧
    (∀ (snapshot : SystemSnapshot) (i : ℕ),
      (i + 1) * 8 ≤ ((memorySegments snapshot false).map (segmentUnits width)).sum →
      (drawStackedMeter width (memorySegments snapshot true))[i]? =
        (drawStackedMeter width (memorySegments snapshot false))[i]?) ∧
    ∀ percent fillColorPair, drawMeter width percent fillColorPair =
      drawStackedMeter width [⟨percent, fillColorPair, .normal⟩] :=
  ⟨fun i hi => (getElem?_drawStackedMeter width segments i).trans (if_pos hi),
    sum_eighths width segments, fun _ h => drawStackedMeter_append more h,
    fun snapshot _ h => drawStackedMeter_append (cachedSegments snapshot) h, drawMeter_eq width⟩

end Mtop
