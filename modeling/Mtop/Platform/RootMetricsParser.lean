import Mtop.ConfigFile
import Mtop.Platform.RootMetrics
import Mtop.Library.CxxRound

/-! Reading the task table of `powermetrics` (`root_metrics_parser.cpp`): the lines are scanned once,
with the column names of the last header line, and every row of as many fields is recorded under its
pid. -/
namespace Mtop
open Cxx Std
set_option autoImplicit false

/-! ## Fields -/

def trimCopy (text : Text) : Text := trim text

/-- The state of the loop over the characters of a line. -/
structure FieldScan where
  result : List Text := []
  current : Text := []
  spaceRun : ℕ := 0

def scanChar (s : FieldScan) (ch : Char) : FieldScan :=
  if ch = ' ' then
    if 2 ≤ s.spaceRun + 1 then
      if s.current = [] then { s with spaceRun := s.spaceRun + 1 }
      else ⟨s.result ++ [trimCopy s.current], [], s.spaceRun + 1⟩
    else if s.current = [] then { s with spaceRun := s.spaceRun + 1 }
    else ⟨s.result, s.current ++ [ch], s.spaceRun + 1⟩
  else ⟨s.result, s.current ++ [ch], 0⟩

def FieldScan.finish (s : FieldScan) : List Text :=
  if s.current = [] then s.result else s.result ++ [trimCopy s.current]

def splitMultiSpace (line : Text) : List Text := (line.foldl scanChar {}).finish

/-- The characters of a number: digits and `.+-eE`. -/
def isNumericChar (ch : Char) : Bool :=
  ch.isDigit || ch == '.' || ch == '+' || ch == '-' || ch == 'e' || ch == 'E'

def isNumericField (text : Text) : Bool :=
  (trimCopy text).all isNumericChar && (trimCopy text).any Char.isDigit

/-- What `stream >> part` delivers. -/
def words (text : Text) : List Text := (text.splitOnP isSpace).filter fun part => !part.isEmpty

/-- Empty unless the field is made of two numbers or more. -/
def splitNumericSubfields (field : Text) : List Text :=
  let parts := words field
  if parts.all isNumericField && 2 ≤ parts.length then parts else []

/-- The first field that can be split is; none if there is no such field. -/
def splitFirst : List Text → Option (List Text)
  | [] => none
  | field :: fields =>
    if splitNumericSubfields field = [] then (splitFirst fields).map (field :: ·)
    else some (splitNumericSubfields field ++ fields)

/-- The loop; each round that goes on adds at least one field. -/
def splitRounds : ℕ → ℕ → List Text → List Text
  | 0, _, fields => fields
  | rounds + 1, expectedSize, fields =>
    if fields.length < expectedSize then
      match splitFirst fields with
      | none => fields
      | some fields => splitRounds rounds expectedSize fields
    else fields

def splitMergedNumericFields (fields : List Text) (expectedSize : ℕ) : List Text :=
  splitRounds expectedSize expectedSize (fields.map trimCopy)

/-! ## The header -/

/-- The parts of a text before and after the first `needle`. -/
def splitAtFirst (needle : Text) : Text → Option (Text × Text)
  | [] => if needle = [] then some ([], []) else none
  | c :: rest =>
    if needle.isPrefixOf (c :: rest) then some ([], (c :: rest).drop needle.length)
    else (splitAtFirst needle rest).map fun parts => (c :: parts.1, parts.2)

def expandField (field : Text) : List Text :=
  if startsWith field (str "Deadlines (") then [str "Deadline<2ms", str "Deadline2-5ms"]
  else if startsWith field (str "Wakeups (") then [str "WakeupsIntr", str "WakeupsPkgIdle"]
  else
    match splitAtFirst (str " %") field with
    | some (before, after) => [before, '%' :: after]
    | none => [field]

def expandAmpHeader (fields : List Text) : List Text := fields.flatMap expandField

/-! ## Numbers -/

def atof (text : Text) : Double := (strtod text).1

/-- `std::fabs`. -/
def fabs : Double → Double
  | .finite _ magnitude => .finite false magnitude
  | .inf _ => .inf false
  | .nan => .nan

/-- `value /= 1024.0`, which is exact. -/
def shrink : Double → Double
  | .finite negative magnitude => .finite negative (magnitude / 1024)
  | value => value

/-- The loop over the units, with so many of them left. -/
def scaleUnits : ℕ → ℕ → Double → ℕ × Double
  | 0, unit, value => (unit, value)
  | left + 1, unit, value =>
    if Double.le 1024 (fabs value) then scaleUnits left (unit + 1) (shrink value) else (unit, value)

def unitNames : List Char := ['B', 'K', 'M', 'G', 'T']

def compactIoBytes (value : Double) : Text :=
  let (unit, value) := scaleUnits 4 0 value
  let places := if unit = 0 || Double.le 10 (fabs value) then 0 else 1
  (Double.fixedText places value ++ [unitNames.getD unit 'T']).take 15

/-- `static_cast<int>(std::round(value))`; out of range it saturates, and a NaN gives 0. -/
def roundToInt : Double → ℤ
  | .nan => 0
  | .inf negative => if negative then -2 ^ 31 else 2 ^ 31 - 1
  | value => clamp (llround value.value) (-2 ^ 31) (2 ^ 31 - 1)

/-! ## One row -/

/-- The fields of a row under the names of their columns. -/
def rowOf (header values : List Text) : TreeMap Text Text :=
  TreeMap.ofList ((header.zip values).map fun cell => (trimCopy cell.1, trimCopy cell.2))

def rowPid (row : TreeMap Text Text) : Option ℤ :=
  (row[str "ID"]?.orElse fun _ => row[str "PID"]?).map atoi

/-- `primary_ms * 100.0 / total`, if there is a total. -/
def primaryShare (primaryMs total : Double) : Double :=
  if Double.lt 0 total then Double.divRounded (Double.mulRounded primaryMs 100) total else 0

/-- The share of the primary cores, and whether they may be super cores. -/
def primaryPercent (row : TreeMap Text Text) : Double × Bool :=
  match row[str "%SCPU"]?, row[str "SCPU ms/s"]?, row[str "CPU ms/s"]?, row[str "%PCPU"]?,
    row[str "PCPU ms/s"]? with
  | some scpu, _, _, _, _ => (atof scpu, true)
  | none, some primaryMs, some total, _, _ => (primaryShare (atof primaryMs) (atof total), true)
  | _, _, _, some pcpu, _ => (atof pcpu, false)
  | _, _, some total, none, some primaryMs => (primaryShare (atof primaryMs) (atof total), false)
  | _, _, _, _, _ => (0, false)

def coreMixText (hasSuper : Bool) (row : TreeMap Text Text) : Text :=
  let (primary, superCores) := primaryPercent row
  let rest := Double.addRounded 100 primary.neg
  let secondary := if Double.lt 0 rest then rest else 0
  let superLabels := superCores && hasSuper
  let primaryLabel := if superLabels then str "S" else str "P"
  let secondaryLabel := if superLabels then str "P" else str "E"
  primaryLabel ++ ':' :: intText (roundToInt primary) ++ str "% " ++ secondaryLabel ++
    ':' :: intText (roundToInt secondary) ++ ['%']

/-- `saw_io_column`, with what has been read and written so far. -/
structure IoTotals where
  saw : Bool := false
  read : Double := 0
  written : Double := 0

def addIoColumn (totals : IoTotals) (cell : Text × Text) : IoTotals :=
  let column := lowercase cell.1
  if contains column (str "disk") || contains column (str "io") || contains column (str "bytes") then
    if contains column (str "read") then
      { totals with saw := true, read := totals.read.addRounded (atof cell.2) }
    else if contains column (str "write") || contains column (str "written") then
      { totals with saw := true, written := totals.written.addRounded (atof cell.2) }
    else { totals with saw := true }
  else totals

def ioTotals (row : TreeMap Text Text) : IoTotals := row.toList.foldl addIoColumn {}

def ioText (read written : Double) : Text :=
  (compactIoBytes read ++ '/' :: compactIoBytes written).take 31

def isPowerColumn (cell : Text × Text) : Bool :=
  contains (lowercase cell.1) (str "energy") || contains (lowercase cell.1) (str "impact")

def powerText (row : TreeMap Text Text) : Option Text :=
  (row.toList.find? isPowerColumn).map fun cell => (Double.fixedText 0 (atof cell.2)).take 15

def recordRow (hasSuper : Bool) (row : TreeMap Text Text) (pid : ℤ) (amp : AmpData) : AmpData :=
  let totals := ioTotals row
  { coreMix := amp.coreMix.insert pid (coreMixText hasSuper row)
    io := if totals.saw then amp.io.insert pid (ioText totals.read totals.written) else amp.io
    power :=
      match powerText row with
      | some text => amp.power.insert pid text
      | none => amp.power }

/-- A row counts if it has as many fields as the header and a pid. -/
def parseRow (hasSuper : Bool) (header : List Text) (trimmed : Text) (amp : AmpData) : AmpData :=
  let values := splitMergedNumericFields (splitMultiSpace trimmed) header.length
  if values.length ≠ header.length then amp
  else
    match rowPid (rowOf header values) with
    | none => amp
    | some pid => if pid ≤ 0 then amp else recordRow hasSuper (rowOf header values) pid amp

/-! ## The table -/

structure TaskScan where
  inTasks : Bool := false
  header : List Text := []
  result : AmpData := {}

def sectionMark : Text := str "*** Running tasks ***"

/-- One line; nothing where the section ends. -/
def scanLine (hasSuper : Bool) (s : TaskScan) (line : Text) : Option TaskScan :=
  let trimmed := trimCopy line
  if contains trimmed sectionMark then some { s with inTasks := true }
  else if !s.inTasks then some s
  else if startsWith trimmed (str "****") then none
  else if trimmed = [] then some s
  else if startsWith trimmed (str "Name") && contains trimmed (str "CPU ms/s") then
    some { s with header := expandAmpHeader (splitMultiSpace trimmed) }
  else if s.header = [] then some s
  else some { s with result := parseRow hasSuper s.header trimmed s.result }

def scanLines (hasSuper : Bool) : List Text → TaskScan → AmpData
  | [], s => s.result
  | line :: lines, s =>
    match scanLine hasSuper s line with
    | none => s.result
    | some s => scanLines hasSuper lines s

def parseAmpData (text : Text) (hasSuper : Bool) : AmpData :=
  scanLines hasSuper (getLines text) {}

end Mtop
