import Mtop.Ui.State
import Mtop.Library.OutputStream
import Mathlib.Data.List.DropRight

/-! The settings file (`config.cpp`): one scanner reads it into an `AppConfig`, another replaces or
appends the `view_profile` line and writes the file back in place. -/
namespace Mtop
open Cxx
set_option autoImplicit false

/-! ## Values -/

/-- The characters `" \t\r\n"`. -/
def isTrimmed (c : Char) : Bool := c == ' ' || c == '\t' || c == '\r' || c == '\n'

def trim (input : Text) : Text := (input.dropWhile isTrimmed).rdropWhile isTrimmed

def parseViewProfile (value : Text) : Option ViewProfile :=
  let lowered := lowercase (trim value)
  if lowered = str "alpha" then some .alpha
  else if lowered = str "beta" then some .beta
  else none

/-- `strtol` over the C string of the value: the whole of it must be one number that is an `int`. -/
def parseInt (value : Text) : Option ℤ :=
  let text := value.takeWhile (· ≠ '\x00')
  match strtolEnd text with
  | none => none
  | some rest =>
    let parsed := strtol text
    if parsed < -2 ^ 31 ∨ parsed > 2 ^ 31 - 1 then none
    else if rest.all isSpace then some parsed
    else none

def parseBool (value : Text) (fallback : Bool) : Bool :=
  let lowered := lowercase (trim value)
  if lowered = str "1" ∨ lowered = str "true" ∨ lowered = str "yes" ∨ lowered = str "on" then true
  else if lowered = str "0" ∨ lowered = str "false" ∨ lowered = str "no" ∨ lowered = str "off" then false
  else fallback

def parseViewMode (value : Text) (fallback : ViewMode) : ViewMode :=
  let lowered := lowercase (trim value)
  if lowered = str "overview" ∨ lowered = str "main" then .overview
  else if lowered = str "system_io" ∨ lowered = str "system-io" ∨ lowered = str "io" then .systemIo
  else if lowered = str "gpu_active" ∨ lowered = str "gpu-active" ∨ lowered = str "gpu" then .gpuActive
  else fallback

def parseSortMode (value : Text) (fallback : SortMode) : SortMode :=
  let lowered := lowercase (trim value)
  if lowered = str "pid" then .pid
  else if lowered = str "cpu" ∨ lowered = str "pcpu" then .cpu
  else if lowered = str "mem" ∨ lowered = str "memory" then .mem
  else if lowered = str "time" then .time
  else if lowered = str "name" ∨ lowered = str "command" then .name
  else if lowered = str "gpu" ∨ lowered = str "gpu_active" ∨ lowered = str "gpu-active" then .gpuActive
  else if lowered = str "io" then .io
  else if lowered = str "pwr" ∨ lowered = str "power" then .power
  else fallback

def parseSortDirection (value : Text) (fallback : ℤ) : ℤ :=
  let lowered := lowercase (trim value)
  if lowered = str "asc" ∨ lowered = str "ascending" ∨ lowered = str "1" then 1
  else if lowered = str "desc" ∨ lowered = str "descending" ∨ lowered = str "-1" then -1
  else fallback

/-! ## Loading -/

/-- One setting; an unknown key changes nothing. -/
def setValue (key value : Text) (config : AppConfig) : AppConfig :=
  if key = str "theme" ∧ value ≠ [] then { config with theme := value }
  else if key = str "refresh_ms" ∧ value ≠ [] then
    { config with refreshMs := clamp ((parseInt value).getD config.refreshMs) 100 60000 }
  else if key = str "process_limit" ∧ value ≠ [] then
    { config with processLimit := clamp ((parseInt value).getD config.processLimit) 4 1000 }
  else if key = str "demo_mode" then
    { config with demoMode := parseBool value config.demoMode }
  else if key = str "root_sample_ms" ∧ value ≠ [] then
    { config with rootSampleMs := clamp ((parseInt value).getD config.rootSampleMs) 250 60000 }
  else if key = str "snapshot_interval_ms" ∧ value ≠ [] then
    { config with
      snapshotIntervalMs := clamp ((parseInt value).getD config.snapshotIntervalMs) 100 60000 }
  else if key = str "show_cached_memory" then
    { config with showCachedMemory := parseBool value config.showCachedMemory }
  else if key = str "default_view" ∧ value ≠ [] then
    { config with defaultView := parseViewMode value config.defaultView }
  else if key = str "sort" ∧ value ≠ [] then
    { config with
      sort := parseSortMode value config.sort
      sortDirection := defaultSortDirection (parseSortMode value config.sort) }
  else if key = str "sort_direction" ∧ value ≠ [] then
    { config with sortDirection := parseSortDirection value config.sortDirection }
  else if key = str "view_profile" ∧ value ≠ [] then
    { config with viewProfile := (parseViewProfile value).getD .alpha }
  else config

def parseLine (line : Text) (config : AppConfig) : AppConfig :=
  if line = [] ∨ line.head? = some '#' then config
  else
    match line.idxOf? '=' with
    | none => config
    | some eq => setValue (trim (line.take eq)) (trim (line.drop (eq + 1))) config

/-- The settings of a file; the defaults without one. -/
def loadConfig (file : Option Text) : AppConfig :=
  (getLines (file.getD [])).foldl (fun config line => parseLine (trim line) config) {}

/-! ## Persisting -/

/-- A path and its parent directory, if it has one. -/
structure ConfigPath where
  text : Text
  parent : Option Text := none

/-- What the file system answers, and how the output reaches the disk. -/
structure FileOutcomes where
  opensRead : Bool := true
  createDirectories : Except Text Unit := .ok ()
  opensWrite : Bool := true
  disk : Disk := {}

structure Persisted where
  ok : Bool
  error : Text := []
  file : Option Text

/-- The line that the rewriter looks for. -/
def isViewProfileLine (line : Text) : Bool :=
  let trimmed := trim line
  if trimmed = [] ∨ trimmed.head? = some '#' then false
  else
    match trimmed.idxOf? '=' with
    | none => false
    | some eq => trim (trimmed.take eq) = str "view_profile"

/-- Replaces the first such line, and says whether there was one. -/
def replaceLine (desired : Text) : List Text → List Text × Bool
  | [] => ([], false)
  | line :: lines =>
    if isViewProfileLine line then (desired :: lines, true)
    else
      let (lines, updated) := replaceLine desired lines
      (line :: lines, updated)

def desiredLine (profile : ViewProfile) : Text := str "view_profile=" ++ viewProfileName profile

def updateLines (profile : ViewProfile) (lines : List Text) : List Text :=
  let (lines, updated) := replaceLine (desiredLine profile) lines
  if updated then lines else lines ++ [desiredLine profile]

/-- The output loop, `output << line << '\n'`. -/
def writeLines (disk : Disk) (lines : List Text) (output : OutputStream) : OutputStream :=
  lines.foldl (fun output line => disk.put (disk.write output line) '\n') output

def persistViewProfile (path : Option ConfigPath) (file : Option Text) (profile : ViewProfile)
    (outcomes : FileOutcomes) : Persisted :=
  match path with
  | none => { ok := false, error := str "could not determine config path", file }
  | some path =>
    if file.isSome ∧ outcomes.opensRead = false then
      { ok := false, error := str "could not read config file: " ++ path.text, file }
    else
      let lines := updateLines profile (getLines (file.getD []))
      match path.parent, outcomes.createDirectories with
      | some parent, .error reason =>
        { ok := false
          error := str "could not create config directory: " ++ parent ++ str ": " ++ reason
          file }
      | _, _ =>
        if outcomes.opensWrite then
          let output := writeLines outcomes.disk lines {}
          -- The stream is tested before its destructor hands over the rest.
          let file := some (outcomes.disk.close output)
          if output.good then { ok := true, file }
          else
            { ok := false
              error := str "could not finish writing config file: " ++ path.text
              file }
        else { ok := false, error := str "could not write config file: " ++ path.text, file }

example : loadConfig (some (str "view_profile=beta\nsort = NAME\n#theme=x\nrefresh_ms=5")) =
    { viewProfile := .beta, sort := .name, sortDirection := 1, refreshMs := 100 } := by
  decide +kernel

end Mtop
