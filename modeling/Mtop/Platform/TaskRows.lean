import Mtop.Platform.RootMetricsParser

/-! The rows that the parser records, in the order of the lines: its maps are a fold over them, and
the core mix of a process is the one of its last row. -/
namespace Mtop
open Cxx Std
set_option autoImplicit false

/-- The fields of a row by their columns, and its pid. -/
abbrev TaskRow := TreeMap Text Text × ℤ

/-- What `parseRow` records. -/
def rowEntry (header : List Text) (trimmed : Text) : Option TaskRow :=
  let values := splitMergedNumericFields (splitMultiSpace trimmed) header.length
  if values.length ≠ header.length then none
  else
    match rowPid (rowOf header values) with
    | none => none
    | some pid => if pid ≤ 0 then none else some (rowOf header values, pid)

/-- The row of a line, if the line is one of the table. -/
def lineEntry (s : TaskScan) (line : Text) : Option TaskRow :=
  let trimmed := trimCopy line
  if contains trimmed sectionMark || !s.inTasks || startsWith trimmed (str "****") ||
      trimmed = [] || (startsWith trimmed (str "Name") && contains trimmed (str "CPU ms/s")) ||
      s.header = [] then none
  else rowEntry s.header trimmed

def recordedRows : List Text → TaskScan → List TaskRow
  | [], _ => []
  | line :: lines, s =>
    match scanLine false s line with
    | none => []
    | some next => (lineEntry s line).toList ++ recordedRows lines { next with result := {} }

def record (hasSuper : Bool) (amp : AmpData) (entry : TaskRow) : AmpData :=
  recordRow hasSuper entry.1 entry.2 amp

theorem parseRow_eq (hasSuper : Bool) (header : List Text) (trimmed : Text) (amp : AmpData) :
    parseRow hasSuper header trimmed amp =
      (rowEntry header trimmed).toList.foldl (record hasSuper) amp := by
  unfold parseRow rowEntry
  dsimp only
  split
  · rfl
  · cases rowPid (rowOf header _) with
    | none => rfl
    | some pid =>
      dsimp only
      split <;> rfl

/-- A line moves the section and the header on alone, and adds its row to the maps. -/
theorem scanLine_eq (hasSuper : Bool) (inTasks : Bool) (header : List Text) (amp : AmpData)
    (line : Text) :
    scanLine hasSuper ⟨inTasks, header, amp⟩ line =
      (scanLine false ⟨inTasks, header, {}⟩ line).map fun next =>
        { next with
          result := (lineEntry ⟨inTasks, header, {}⟩ line).toList.foldl (record hasSuper) amp } := by
  unfold scanLine lineEntry
  dsimp only
  rw [parseRow_eq hasSuper]
  generalize contains (trimCopy line) sectionMark = mark
  generalize startsWith (trimCopy line) (str "****") = stars
  generalize (startsWith (trimCopy line) (str "Name") &&
    contains (trimCopy line) (str "CPU ms/s")) = names
  cases mark with
  | true => rfl
  | false =>
    cases inTasks with
    | false => rfl
    | true =>
      cases stars with
      | true => rfl
      | false =>
        by_cases hempty : trimCopy line = []
        · simp [hempty]
        · cases names with
          | true => simp [hempty]
          | false => by_cases hnone : header = [] <;> simp [hempty, hnone]

theorem scanLines_eq_foldl (hasSuper : Bool) (lines : List Text) (inTasks : Bool)
    (header : List Text) (amp : AmpData) :
    scanLines hasSuper lines ⟨inTasks, header, amp⟩ =
      (recordedRows lines ⟨inTasks, header, {}⟩).foldl (record hasSuper) amp := by
  induction lines generalizing inTasks header amp with
  | nil => rfl
  | cons line lines ih =>
    unfold scanLines recordedRows
    rw [scanLine_eq]
    cases scanLine false ⟨inTasks, header, {}⟩ line with
    | none => rfl
    | some next =>
      dsimp only [Option.map_some]
      rw [ih, List.foldl_append]

/-- The rows of a text. -/
def taskRows (text : Text) : List TaskRow := recordedRows (getLines text) {}

theorem parseAmpData_eq_foldl (text : Text) (hasSuper : Bool) :
    parseAmpData text hasSuper = (taskRows text).foldl (record hasSuper) {} :=
  scanLines_eq_foldl hasSuper (getLines text) false [] {}

/-- The fields of the last row with this pid. -/
def lastRow (text : Text) (pid : ℤ) : Option (TreeMap Text Text) :=
  ((taskRows text).reverse.find? fun entry => entry.2 = pid).map (·.1)

theorem coreMix_foldl (hasSuper : Bool) (rows : List TaskRow) (pid : ℤ) :
    (rows.foldl (record hasSuper) {}).coreMix[pid]? =
      ((rows.reverse.find? fun entry => entry.2 = pid).map (·.1)).map (coreMixText hasSuper) := by
  induction rows using List.reverseRecOn with
  | nil => exact TreeMap.getElem?_emptyc
  | append_singleton rows entry ih =>
    have hstep : ∀ amp, (record hasSuper amp entry).coreMix =
        amp.coreMix.insert entry.2 (coreMixText hasSuper entry.1) := fun _ => rfl
    rw [List.foldl_append, List.foldl_cons, List.foldl_nil, hstep, TreeMap.getElem?_insert,
      List.reverse_append, List.reverse_singleton, List.singleton_append, List.find?_cons]
    by_cases h : entry.2 = pid
    · simp [h]
    · simp [h, ih]

/-- The core mix of a process is the one of its last row. -/
theorem coreMix_parseAmpData (text : Text) (hasSuper : Bool) (pid : ℤ) :
    (parseAmpData text hasSuper).coreMix[pid]? = (lastRow text pid).map (coreMixText hasSuper) := by
  rw [parseAmpData_eq_foldl, coreMix_foldl]
  rfl

end Mtop
