import Mtop.Library.CxxLines
import Mtop.Platform.TaskFields

/-! A task table as `powermetrics` prints it, and what is read of it: numbers that run together are
told apart, so that no row is lost and none is misread. -/
namespace Mtop
open Cxx Std
set_option autoImplicit false
unseal str

/-! ## Printed tables -/

/-- A line of the table: its first field, and the others with the width of the gap before each. -/
structure TableLine where
  first : Text
  cells : List (ℕ × Text)

def TableLine.values (line : TableLine) : List Text := line.cells.map Prod.snd

def TableLine.fields (line : TableLine) : List Text := line.first :: line.values

def TableLine.text (line : TableLine) : Text := line.first ++ spaced line.cells

structure TaskTable where
  before : List Text := []
  header : TableLine
  rows : List TableLine
  after : List Text := []

def TaskTable.lines (table : TaskTable) : List Text :=
  table.before ++ sectionMark :: table.header.text ::
    (table.rows.map TableLine.text ++ table.after)

def TaskTable.text (table : TaskTable) : Text := joinLines table.lines

def isPidColumn (column : Text) : Bool := column = str "ID" || column = str "PID"

/-- The number under `ID` or `PID`. -/
def pidUnder (header row : TableLine) : ℤ :=
  (((header.values.zip row.values).find? fun cell => isPidColumn cell.1).map fun cell =>
    strtol cell.2).getD 0

structure PlainColumn (column : Text) : Prop where
  field : IsField column
  newline : '\n' ∉ column
  percent : contains column (str " %") = false
  deadlines : startsWith column (str "Deadlines (") = false
  wakeups : startsWith column (str "Wakeups (") = false

instance (column : Text) : Decidable (PlainColumn column) :=
  decidable_of_iff (IsField column ∧ '\n' ∉ column ∧ contains column (str " %") = false ∧
      startsWith column (str "Deadlines (") = false ∧ startsWith column (str "Wakeups (") = false)
    ⟨fun ⟨field, newline, percent, deadlines, wakeups⟩ =>
      ⟨field, newline, percent, deadlines, wakeups⟩,
      fun h => ⟨h.field, h.newline, h.percent, h.deadlines, h.wakeups⟩⟩

structure PlainHeader (header : TableLine) : Prop where
  columns : ∀ column ∈ header.fields, PlainColumn column
  gaps : ∀ cell ∈ header.cells, 2 ≤ cell.1
  nodup : header.fields.Nodup
  name : startsWith header.first (str "Name") = true
  cpu : str "CPU ms/s" ∈ header.fields
  pid : Xor (str "ID" ∈ header.fields) (str "PID" ∈ header.fields)

/-- One or more words, but not two or more that are all numbers. -/
structure PlainName (name : Text) : Prop where
  words : ∃ parts, parts ≠ [] ∧ (∀ part ∈ parts, IsWord part) ∧ name = joinWords parts ∧
    ¬ (2 ≤ parts.length ∧ ∀ part ∈ parts, isNumericField part = true)
  stars : startsWith name (str "****") = false
  header : startsWith name (str "Name") = false
  mark : contains name sectionMark = false

/-- The numbers of a row, with a wide gap before them and gaps of any width between them. -/
structure PlainCells (header row : TableLine) : Prop where
  length : row.cells.length = header.cells.length
  numerals : ∀ cell ∈ row.cells, IsNumeral cell.2
  wide : ∀ cell ∈ row.cells.head?, 2 ≤ cell.1
  gaps : ∀ cell ∈ row.cells, 1 ≤ cell.1
  pid : 0 < pidUnder header row ∧ pidUnder header row < 2 ^ 31

instance (header row : TableLine) : Decidable (PlainCells header row) :=
  decidable_of_iff (row.cells.length = header.cells.length ∧
      (∀ cell ∈ row.cells, IsNumeral cell.2) ∧ (∀ cell ∈ row.cells.head?, 2 ≤ cell.1) ∧
      (∀ cell ∈ row.cells, 1 ≤ cell.1) ∧
      (0 < pidUnder header row ∧ pidUnder header row < 2 ^ 31))
    ⟨fun ⟨length, numerals, wide, gaps, pid⟩ => ⟨length, numerals, wide, gaps, pid⟩,
      fun h => ⟨h.length, h.numerals, h.wide, h.gaps, h.pid⟩⟩

/-- The lines around the table. -/
structure PlainFrame (before after : List Text) : Prop where
  newline : ∀ line ∈ before ++ after, '\n' ∉ line
  start : ∀ line ∈ before, contains (trimCopy line) sectionMark = false
  stop : ∀ line ∈ after.head?, startsWith (trimCopy line) (str "****") = true ∧
    contains (trimCopy line) sectionMark = false

theorem plainFrame_nil : PlainFrame [] [] :=
  ⟨by decide, by decide, fun line hline => by cases hline⟩

structure PlainTable (table : TaskTable) : Prop where
  frame : PlainFrame table.before table.after
  header : PlainHeader table.header
  names : ∀ row ∈ table.rows, PlainName row.first
  cells : ∀ row ∈ table.rows, PlainCells table.header row

/-- The same columns and rows, whatever the gaps are. -/
def TaskTable.SameFields (table other : TaskTable) : Prop :=
  table.header.fields = other.header.fields ∧
    table.rows.map TableLine.fields = other.rows.map TableLine.fields

/-- What the rows say. -/
def TaskTable.data (table : TaskTable) (hasSuper : Bool) : AmpData :=
  table.rows.foldl (fun amp row =>
    recordRow hasSuper (rowOf table.header.fields row.fields) (pidUnder table.header row) amp) {}

/-! ## Searching a line -/

theorem isNumericChar_of_mem {token : Text} (h : IsNumeral token) :
    ∀ c ∈ token, isNumericChar c = true := by
  have hnumeric := h.numeric
  unfold isNumericField at hnumeric
  rw [h.isWord.isField.trimCopy_eq, Bool.and_eq_true] at hnumeric
  exact List.all_eq_true.mp hnumeric.1

/-- The characters of a row behind its name. -/
theorem mem_spaced {cells : List (ℕ × Text)} (h : ∀ cell ∈ cells, IsNumeral cell.2) {c : Char}
    (hc : c ∈ spaced cells) : c = ' ' ∨ isNumericChar c = true := by
  obtain ⟨cell, hcell, hmem⟩ := List.mem_flatMap.mp hc
  rcases List.mem_append.mp hmem with hgap | htoken
  · exact .inl (List.eq_of_mem_replicate hgap)
  · exact .inr (isNumericChar_of_mem (h cell hcell) c htoken)

/-- A name of a column is not found in the numbers of a row, nor is the mark of the section. -/
theorem contains_spaced {cells : List (ℕ × Text)} (h : ∀ cell ∈ cells, IsNumeral cell.2)
    {needle : Text} (last : Char) (hlast : needle.getLast? = some last) (hblank : last ≠ ' ')
    (hnumeric : isNumericChar last = false) (start : Text) :
    contains (start ++ spaced cells) needle = contains start needle := by
  unfold contains
  refine decide_eq_decide.mpr (infix_append_iff_of_getLast hlast fun hmem => ?_)
  rcases mem_spaced h hmem with hspace | hdigit
  · exact hblank hspace
  · rw [hnumeric] at hdigit
    exact Bool.noConfusion hdigit

theorem spaced_eq_cons {cells : List (ℕ × Text)} (hne : cells ≠ [])
    (h : ∀ cell ∈ cells, 1 ≤ cell.1) : ∃ rest, spaced cells = ' ' :: rest := by
  obtain ⟨⟨gap, cell⟩, cells, rfl⟩ := List.exists_cons_of_ne_nil hne
  obtain ⟨gap, rfl⟩ := Nat.exists_eq_add_of_le' (h _ List.mem_cons_self)
  exact ⟨List.replicate gap ' ' ++ (cell ++ spaced cells), by rw [spaced_cons]; rfl⟩

theorem startsWith_spaced {cells : List (ℕ × Text)} (hne : cells ≠ [])
    (h : ∀ cell ∈ cells, 1 ≤ cell.1) {needle : Text} (hneedle : ' ' ∉ needle) (start : Text) :
    startsWith (start ++ spaced cells) needle = startsWith start needle := by
  obtain ⟨rest, hrest⟩ := spaced_eq_cons hne h
  unfold startsWith
  rw [hrest]
  refine Bool.eq_iff_iff.mpr ?_
  rw [List.isPrefixOf_iff_prefix, List.isPrefixOf_iff_prefix]
  exact prefix_append_cons_iff hneedle rest

/-- Between numbers and blanks, nothing is found that has another character. -/
theorem contains_numbers {text needle : Text} (h : ∀ c ∈ text, c = ' ' ∨ isNumericChar c = true)
    (c : Char) (hc : c ∈ needle ∧ c ≠ ' ' ∧ isNumericChar c = false) :
    contains text needle = false := by
  refine decide_eq_false fun hfound => ?_
  rcases h c (hfound.mem hc.1) with hblank | hnumeric
  · exact hc.2.1 hblank
  · rw [hc.2.2] at hnumeric
    exact Bool.noConfusion hnumeric

theorem startsWith_numbers {text needle : Text} (h : ∀ c ∈ text, c = ' ' ∨ isNumericChar c = true)
    (c : Char) (hc : c ∈ needle ∧ c ≠ ' ' ∧ isNumericChar c = false) :
    startsWith text needle = false := by
  refine Bool.eq_false_of_not_eq_true fun hstart => ?_
  have hin := (List.isPrefixOf_iff_prefix.mp hstart).isInfix
  exact of_decide_eq_false (contains_numbers h c hc) hin

/-- What is found in a line with wide gaps stands in one of its fields. -/
theorem infix_wide_gap {needle before after : Text} (hneedle : IsField needle) {gap : ℕ}
    (hgap : 2 ≤ gap) (h : needle <:+: before ++ (List.replicate gap ' ' ++ after)) :
    needle <:+: before ∨ needle <:+: after := by
  have hblank : ∀ c ∈ needle.head?, c ≠ ' ' := by
    rintro c hc rfl
    exact absurd (hneedle.first ' ' hc) (by decide)
  rcases List.infix_append_iff_ne_nil.mp h with
    hbefore | hrest | ⟨left, right, hleft, hright, rfl, _, hstart⟩
  · exact .inl hbefore
  · rcases List.infix_append_iff_ne_nil.mp hrest with
      hgaps | hafter | ⟨left, right, hleft, _, rfl, hgaps, _⟩
    · obtain ⟨c, tail, hcons⟩ := List.exists_cons_of_ne_nil hneedle.ne
      have hc := List.eq_of_mem_replicate (hgaps.mem (hcons ▸ List.mem_cons_self))
      exact absurd hc (hblank c (by rw [hcons]; rfl))
    · exact .inr hafter
    · obtain ⟨c, tail, rfl⟩ := List.exists_cons_of_ne_nil hleft
      have hc := List.eq_of_mem_replicate (hgaps.mem List.mem_cons_self)
      exact absurd hc (hblank c rfl)
  · exfalso
    obtain ⟨gap, rfl⟩ := Nat.exists_eq_add_of_le' hgap
    rw [List.replicate_succ, List.replicate_succ, List.cons_append, List.cons_append] at hstart
    obtain ⟨c, tail, rfl⟩ := List.exists_cons_of_ne_nil hright
    obtain ⟨rfl, htail⟩ := List.cons_prefix_cons.mp hstart
    cases tail with
    | nil =>
      have hlast := hneedle.last ' ' (by simp)
      exact absurd hlast (by decide)
    | cons d tail =>
      obtain ⟨rfl, _⟩ := List.cons_prefix_cons.mp htail
      have hchain := (List.isChain_append.mp hneedle.single).2.1
      exact (List.isChain_cons_cons.mp hchain).1 ⟨rfl, rfl⟩

theorem infix_text {needle : Text} (hneedle : IsField needle) {line : TableLine}
    (hgaps : ∀ cell ∈ line.cells, 2 ≤ cell.1) (h : needle <:+: line.text) :
    ∃ field ∈ line.fields, needle <:+: field := by
  obtain ⟨first, cells⟩ := line
  unfold TableLine.text at h
  unfold TableLine.fields
  dsimp only at h hgaps ⊢
  induction cells generalizing first with
  | nil =>
    rw [show spaced [] = [] from rfl, List.append_nil] at h
    exact ⟨first, List.mem_cons_self, h⟩
  | cons cell cells ih =>
    obtain ⟨gap, cell⟩ := cell
    rw [spaced_cons] at h
    rcases infix_wide_gap hneedle (hgaps _ List.mem_cons_self) h with hfirst | hrest
    · exact ⟨first, List.mem_cons_self, hfirst⟩
    · obtain ⟨field, hfield, hfound⟩ := ih cell
        (fun other hother => hgaps other (List.mem_cons_of_mem _ hother)) hrest
      exact ⟨field, List.mem_cons_of_mem first hfield, hfound⟩

theorem infix_text_of_mem {line : TableLine} : ∀ field ∈ line.fields, field <:+: line.text := by
  intro field hfield
  unfold TableLine.text
  rcases List.mem_cons.mp hfield with rfl | hrest
  · exact List.infix_append_left
  · obtain ⟨cell, hcell, rfl⟩ := List.mem_map.mp hrest
    exact List.infix_append_of_infix_right
      (List.infix_append_right.trans (List.infix_of_mem_flatten (List.mem_map_of_mem hcell)))

/-! ## Trimming a line -/

theorem last_spaced {start : Text} {cells : List (ℕ × Text)}
    (hstart : ∀ c ∈ start.getLast?, isTrimmed c = false) (h : ∀ cell ∈ cells, IsField cell.2) :
    ∀ c ∈ (start ++ spaced cells).getLast?, isTrimmed c = false := by
  intro c hc
  rcases List.eq_nil_or_concat cells with rfl | ⟨init, last, rfl⟩
  · rw [show spaced [] = [] from rfl, List.append_nil] at hc
    exact hstart c hc
  · rw [List.concat_eq_append] at h hc
    have hlast := h last (by simp)
    have hline : start ++ spaced (init ++ [last]) =
        start ++ spaced init ++ List.replicate last.1 ' ' ++ last.2 := by
      simp [spaced]
    rw [hline, List.getLast?_append_of_ne_nil _ hlast.ne] at hc
    exact hlast.last c hc

theorem trimCopy_row {start : Text} {cells : List (ℕ × Text)} (hne : cells ≠ [])
    (hcells : ∀ cell ∈ cells, IsField cell.2) (hstart : start.dropWhile isTrimmed ≠ []) :
    trimCopy (start ++ spaced cells) = start.dropWhile isTrimmed ++ spaced cells := by
  refine trimCopy_eq ?_ ?_
  · rw [List.dropWhile_append, if_neg (by simpa using hstart)]
  · obtain ⟨cell, cells, rfl⟩ := List.exists_cons_of_ne_nil hne
    have hline : start.dropWhile isTrimmed ++ spaced (cell :: cells) =
        start.dropWhile isTrimmed ++ List.replicate cell.1 ' ' ++ cell.2 ++ spaced cells := by
      simp [spaced]
    have hcell := hcells cell List.mem_cons_self
    rw [hline]
    refine last_spaced (fun c hc => ?_) fun other hother =>
      hcells other (List.mem_cons_of_mem cell hother)
    rw [List.getLast?_append_of_ne_nil _ hcell.ne] at hc
    exact hcell.last c hc

/-- A row whose name is blank starts with its first number. -/
theorem trimCopy_blank_row {start : Text} {gap : ℕ} {cell : Text} {cells : List (ℕ × Text)}
    (hcell : IsField cell) (hcells : ∀ cell ∈ cells, IsField cell.2)
    (hstart : start.dropWhile isTrimmed = []) :
    trimCopy (start ++ spaced ((gap, cell) :: cells)) = cell ++ spaced cells := by
  have hgap : ∀ c ∈ List.replicate gap ' ', isTrimmed c = true := fun c hc => by
    rw [List.eq_of_mem_replicate hc]
    rfl
  refine trimCopy_eq ?_ (last_spaced hcell.last hcells)
  rw [List.dropWhile_append, hstart, List.isEmpty_nil, if_pos rfl, spaced_cons,
    List.dropWhile_append_of_pos hgap]
  refine dropWhile_isTrimmed fun c hc => hcell.first c ?_
  rwa [List.head?_append_of_ne_nil _ hcell.ne] at hc

/-! ## The header -/

theorem splitAtFirst_none {needle text : Text} (h : contains text needle = false) :
    splitAtFirst needle text = none := by
  have hnot : ¬ needle <:+: text := of_decide_eq_false h
  induction text with
  | nil =>
    unfold splitAtFirst
    refine if_neg ?_
    rintro rfl
    exact hnot (List.infix_refl [])
  | cons c text ih =>
    rw [List.infix_cons_iff, not_or] at hnot
    unfold splitAtFirst
    rw [if_neg (by rw [List.isPrefixOf_iff_prefix]; exact hnot.1),
      ih (decide_eq_false hnot.2) hnot.2]
    rfl

theorem expandAmpHeader_plain {columns : List Text} (h : ∀ column ∈ columns, PlainColumn column) :
    expandAmpHeader columns = columns := by
  have hfield : ∀ column ∈ columns, expandField column = [column] := by
    intro column hcolumn
    obtain ⟨_, _, hpercent, hdeadlines, hwakeups⟩ := h column hcolumn
    unfold expandField
    rw [hdeadlines, if_neg Bool.false_ne_true, hwakeups, if_neg Bool.false_ne_true,
      splitAtFirst_none hpercent]
  unfold expandAmpHeader
  rw [List.flatMap_congr hfield]
  exact List.flatMap_singleton' columns

variable {header row : TableLine}

theorem PlainHeader.cells_ne (h : PlainHeader header) : header.cells ≠ [] := by
  intro hcells
  have hfirst : ∀ column ∈ header.fields, startsWith column (str "Name") = true := by
    intro column hcolumn
    unfold TableLine.fields TableLine.values at hcolumn
    rw [hcells] at hcolumn
    rw [List.mem_singleton.mp hcolumn]
    exact h.name
  exact absurd (hfirst _ h.cpu) (by decide)

theorem PlainHeader.cell (h : PlainHeader header) :
    ∀ cell ∈ header.cells, 1 ≤ cell.1 ∧ IsField cell.2 := fun cell hcell =>
  ⟨(Nat.le_succ 1).trans (h.gaps cell hcell),
    (h.columns _ (List.mem_cons_of_mem _ (List.mem_map_of_mem hcell))).field⟩

theorem PlainHeader.map_trimCopy (h : PlainHeader header) :
    header.fields.map trimCopy = header.fields := by
  rw [List.map_congr_left fun column hcolumn => (h.columns column hcolumn).field.trimCopy_eq,
    List.map_id']

theorem PlainHeader.nodup_trimmed (h : PlainHeader header) :
    (header.fields.map trimCopy).Nodup := by
  rw [h.map_trimCopy]
  exact h.nodup

theorem PlainHeader.split (h : PlainHeader header) :
    splitMultiSpace header.text = header.fields := by
  obtain ⟨first, cells⟩ := header
  have hfirst : IsField first := (h.columns first List.mem_cons_self).field
  have hwide : ∀ cell ∈ cells, cell.1 ≠ 1 := fun cell hcell => by
    have hgap : 2 ≤ cell.1 := h.gaps cell hcell
    omega
  have hline := splitMultiSpace_cells hfirst h.cell
  rw [groupCells_wide [first] hwide] at hline
  unfold TableLine.text TableLine.fields TableLine.values
  rw [hline]
  simp

theorem startsWith_append {start needle : Text} (h : startsWith start needle = true)
    (rest : Text) : startsWith (start ++ rest) needle = true := by
  unfold startsWith at h ⊢
  rw [List.isPrefixOf_iff_prefix] at h ⊢
  exact h.trans (List.prefix_append start rest)

/-- A text does not start in two ways. -/
theorem startsWith_other {text needle other : Text} (h : startsWith text needle = true)
    (hne : other ≠ []) (hneedle : needle ≠ []) (hother : other.head? ≠ needle.head?) :
    startsWith text other = false := by
  refine Bool.eq_false_of_not_eq_true fun hstart => hother ?_
  unfold startsWith at h hstart
  obtain ⟨c, other, rfl⟩ := List.exists_cons_of_ne_nil hne
  obtain ⟨d, needle, rfl⟩ := List.exists_cons_of_ne_nil hneedle
  obtain ⟨rest, rfl⟩ := List.isPrefixOf_iff_prefix.mp h
  have hc := (List.cons_prefix_cons.mp (List.isPrefixOf_iff_prefix.mp hstart)).1
  rw [hc]
  rfl

theorem PlainHeader.trimmed (h : PlainHeader header) : trimCopy header.text = header.text := by
  have hfirst := (h.columns _ List.mem_cons_self).field
  have hdrop := dropWhile_isTrimmed hfirst.first
  unfold TableLine.text
  rw [trimCopy_row h.cells_ne (fun cell hcell => (h.cell cell hcell).2)
    (by rw [hdrop]; exact hfirst.ne), hdrop]

/-- The header line sets the columns, unless a column is named like the start of the section. -/
theorem scanLine_header (hasSuper : Bool) (h : PlainHeader header)
    (hmark : ∀ column ∈ header.fields, contains column sectionMark = false) (columns : List Text)
    (amp : AmpData) :
    scanLine hasSuper ⟨true, columns, amp⟩ header.text = some ⟨true, header.fields, amp⟩ := by
  have hmarked : contains header.text sectionMark = false := by
    refine decide_eq_false fun hfound => ?_
    have hfield : IsField sectionMark := by decide
    obtain ⟨column, hcolumn, hin⟩ := infix_text hfield h.gaps hfound
    exact of_decide_eq_false (hmark column hcolumn) hin
  have hname : startsWith header.text (str "Name") = true := startsWith_append h.name _
  have hstars : startsWith header.text (str "****") = false :=
    startsWith_other hname (by decide) (by decide) (by decide)
  have hcpu : contains header.text (str "CPU ms/s") = true :=
    decide_eq_true (infix_text_of_mem _ h.cpu)
  have hne : header.text ≠ [] := by
    intro hempty
    rw [hempty] at hname
    exact absurd hname (by decide)
  unfold scanLine
  dsimp only
  rw [h.trimmed, hmarked, if_neg Bool.false_ne_true, if_neg (by simp), hstars,
    if_neg Bool.false_ne_true, if_neg hne, hname, hcpu, if_pos (by rfl), h.split,
    expandAmpHeader_plain h.columns]

/-! ## A row -/

theorem PlainCells.ne (hheader : PlainHeader header) (h : PlainCells header row) :
    row.cells ≠ [] := by
  intro hempty
  have hlength := h.length
  rw [hempty] at hlength
  exact hheader.cells_ne (List.length_eq_zero_iff.mp hlength.symm)

theorem PlainCells.field (h : PlainCells header row) : ∀ cell ∈ row.cells, IsField cell.2 :=
  fun cell hcell => (h.numerals cell hcell).isWord.isField

/-- Without its margins a row starts with its name, or with its first number. -/
theorem PlainCells.trimmed (hheader : PlainHeader header) (h : PlainCells header row) (name : Text) :
    (name.dropWhile isTrimmed ≠ [] ∧ trimCopy (name ++ spaced row.cells) =
        name.dropWhile isTrimmed ++ spaced row.cells) ∨
      name.dropWhile isTrimmed = [] ∧ trimCopy (name ++ spaced row.cells) ≠ [] ∧
        ∀ c ∈ trimCopy (name ++ spaced row.cells), c = ' ' ∨ isNumericChar c = true := by
  have hcells := h.ne hheader
  by_cases hname : name.dropWhile isTrimmed = []
  · obtain ⟨⟨gap, cell⟩, cells, hrow⟩ := List.exists_cons_of_ne_nil hcells
    have hnumerals := h.numerals
    rw [hrow] at hnumerals ⊢
    have hcell : IsNumeral cell := hnumerals _ List.mem_cons_self
    have hrest : ∀ cell ∈ cells, IsNumeral cell.2 := fun other hother =>
      hnumerals other (List.mem_cons_of_mem _ hother)
    rw [trimCopy_blank_row hcell.isWord.isField (fun other hother =>
      (hrest other hother).isWord.isField) hname]
    refine .inr ⟨hname, by simp [hcell.isWord.1], fun c hc => ?_⟩
    rcases List.mem_append.mp hc with hc | hc
    · exact .inr (isNumericChar_of_mem hcell c hc)
    · exact mem_spaced hrest hc
  · exact .inl ⟨hname, trimCopy_row hcells h.field hname⟩

theorem PlainCells.contains_trimmed (hheader : PlainHeader header) (h : PlainCells header row)
    (name : Text) {needle : Text} (last : Char) (hlast : needle.getLast? = some last)
    (hblank : last ≠ ' ') (hnumeric : isNumericChar last = false) :
    contains (trimCopy (name ++ spaced row.cells)) needle =
      contains (name.dropWhile isTrimmed) needle := by
  rcases h.trimmed hheader name with ⟨_, htrimmed⟩ | ⟨hname, _, hchars⟩
  · rw [htrimmed, contains_spaced h.numerals last hlast hblank hnumeric]
  · have hmem := List.mem_of_getLast? hlast
    have hempty : ¬ needle <:+: [] := fun hin => List.ne_nil_of_mem hmem (List.infix_nil.mp hin)
    rw [hname, contains_numbers hchars last ⟨hmem, hblank, hnumeric⟩]
    exact (decide_eq_false hempty).symm

theorem PlainCells.startsWith_trimmed (hheader : PlainHeader header) (h : PlainCells header row)
    (name : Text) {needle : Text} (hsolid : ' ' ∉ needle) (c : Char) (hmem : c ∈ needle)
    (hnumeric : isNumericChar c = false) :
    startsWith (trimCopy (name ++ spaced row.cells)) needle =
      startsWith (name.dropWhile isTrimmed) needle := by
  rcases h.trimmed hheader name with ⟨_, htrimmed⟩ | ⟨hname, _, hchars⟩
  · rw [htrimmed, startsWith_spaced (h.ne hheader) h.gaps hsolid]
  · obtain ⟨d, rest, rfl⟩ := List.exists_cons_of_ne_nil (List.ne_nil_of_mem hmem)
    have hblank : c ≠ ' ' := fun hc => hsolid (hc ▸ hmem)
    rw [hname, startsWith_numbers hchars c ⟨hmem, hblank, hnumeric⟩]
    rfl

/-- A row counts for what its name starts with and holds; its numbers are never a control line. -/
theorem scanLine_row (hasSuper : Bool) (hheader : PlainHeader header) (h : PlainCells header row)
    (name : Text) (columns : List Text) (hcolumns : columns ≠ []) (amp : AmpData) :
    scanLine hasSuper ⟨true, columns, amp⟩ (name ++ spaced row.cells) =
      let stem := name.dropWhile isTrimmed
      let trimmed := trimCopy (name ++ spaced row.cells)
      if contains stem sectionMark then some ⟨true, columns, amp⟩
      else if startsWith stem (str "****") then none
      else if startsWith stem (str "Name") && contains stem (str "CPU ms/s") then
        some ⟨true, expandAmpHeader (splitMultiSpace trimmed), amp⟩
      else some ⟨true, columns, parseRow hasSuper columns trimmed amp⟩ := by
  have hne : trimCopy (name ++ spaced row.cells) ≠ [] := by
    rcases h.trimmed hheader name with ⟨hname, htrimmed⟩ | ⟨_, hne, _⟩
    · rw [htrimmed]
      exact List.append_ne_nil_of_left_ne_nil hname _
    · exact hne
  have hmark : contains (trimCopy (name ++ spaced row.cells)) sectionMark = _ :=
    h.contains_trimmed hheader name '*' (by decide) (by decide) (by decide)
  have hcpu : contains (trimCopy (name ++ spaced row.cells)) (str "CPU ms/s") = _ :=
    h.contains_trimmed hheader name 's' (by decide) (by decide) (by decide)
  have hstars : startsWith (trimCopy (name ++ spaced row.cells)) (str "****") = _ :=
    h.startsWith_trimmed hheader name (by decide) '*' (by decide) (by decide)
  have hstart : startsWith (trimCopy (name ++ spaced row.cells)) (str "Name") = _ :=
    h.startsWith_trimmed hheader name (by decide) 'N' (by decide) (by decide)
  unfold scanLine
  dsimp only
  rw [hmark, hcpu, hstars, hstart, if_neg (by simp : ¬ (!true) = true), if_neg hne,
    if_neg hcolumns]

/-! ## The pid of a row -/

theorem rowOf_eq_some {columns values : List Text} (hnodup : (columns.map trimCopy).Nodup)
    (hlength : values.length = columns.length) {column value : Text}
    (h : (column, value) ∈ columns.zip values) :
    (rowOf columns values)[trimCopy column]? = some (trimCopy value) := by
  unfold rowOf
  refine TreeMap.getElem?_ofList_of_mem compare_self ?_
    (List.mem_map.mpr ⟨(column, value), h, rfl⟩)
  have hkeys : ((columns.zip values).map fun cell => trimCopy cell.1).Nodup := by
    have hfst : (columns.zip values).map Prod.fst = columns :=
      List.map_fst_zip hlength.ge
    have hkeys := hnodup
    rw [← hfst, List.map_map] at hkeys
    exact hkeys
  exact List.pairwise_map.mpr ((List.pairwise_map.mp hkeys).imp fun hne => by simpa using hne)

theorem rowOf_eq_none {columns values : List Text} {key : Text}
    (h : key ∉ columns.map trimCopy) : (rowOf columns values)[key]? = none := by
  unfold rowOf
  refine TreeMap.getElem?_ofList_of_contains_eq_false ?_
  rw [List.contains_eq_mem, decide_eq_false_iff_not]
  intro hmem
  rw [List.map_map] at hmem
  obtain ⟨cell, hcell, rfl⟩ := List.mem_map.mp hmem
  exact h (List.mem_map_of_mem (List.of_mem_zip hcell).1)

/-- Whatever the name is read as, the pid of a row is the number under `ID` or `PID`. -/
theorem rowPid_eq (hheader : PlainHeader header) (h : PlainCells header row) (field : Text) :
    rowPid (rowOf header.fields (field :: row.values)) = some (pidUnder header row) := by
  have htrim := hheader.map_trimCopy
  have hlength : (field :: row.values).length = header.fields.length := by
    simp [TableLine.values, TableLine.fields, h.length]
  have hrange := h.pid
  unfold pidUnder at hrange ⊢
  cases hfind : (header.values.zip row.values).find? fun cell => isPidColumn cell.1 with
  | none =>
    rw [hfind] at hrange
    exact absurd hrange.1 (lt_irrefl 0)
  | some cell =>
    obtain ⟨column, value⟩ := cell
    rw [hfind] at hrange
    have hmem := List.mem_of_find?_eq_some hfind
    have hzip : (column, value) ∈ header.fields.zip (field :: row.values) :=
      List.mem_cons_of_mem _ hmem
    have hvalue : trimCopy value = value := by
      obtain ⟨cell, hcell, rfl⟩ := List.mem_map.mp (List.of_mem_zip hmem).2
      exact (h.field cell hcell).trimCopy_eq
    have hcolumn : trimCopy column = column :=
      (hheader.columns column (List.of_mem_zip hzip).1).field.trimCopy_eq
    have hlookup := rowOf_eq_some hheader.nodup_trimmed hlength hzip
    rw [hcolumn, hvalue] at hlookup
    have hpositive : 0 < strtol value := hrange.1
    have hatoi : atoi value = strtol value := toInt32_eq_self (by omega) hrange.2
    have hin := (List.of_mem_zip hzip).1
    have hpid : isPidColumn column = true := by simpa using List.find?_some hfind
    unfold rowPid
    rcases Bool.or_eq_true_iff.mp hpid with hid | hid
    · obtain rfl := of_decide_eq_true hid
      rw [hlookup]
      exact congrArg some hatoi
    · obtain rfl := of_decide_eq_true hid
      have hnone : (rowOf header.fields (field :: row.values))[str "ID"]? = none := by
        refine rowOf_eq_none ?_
        rw [htrim]
        rcases hheader.pid with hxor | hxor
        · exact absurd hin hxor.2
        · exact hxor.2
      rw [hnone, hlookup]
      exact congrArg some hatoi

/-- A row is split as its name without the blanks before it, and its numbers. -/
theorem PlainCells.split (hheader : PlainHeader header) (h : PlainCells header row) (name : Text) :
    ∃ groups : List (List Text), (∀ group ∈ groups, group ≠ []) ∧ groups.flatten = row.values ∧
      splitMultiSpace (trimCopy (name ++ spaced row.cells)) =
        splitMultiSpace (name.dropWhile isTrimmed) ++ groups.map joinWords := by
  have hcells := h.ne hheader
  obtain ⟨⟨gap, cell⟩, cells, hrow⟩ := List.exists_cons_of_ne_nil hcells
  have hfield := h.field
  have hgaps := h.gaps
  have hwide := h.wide
  unfold TableLine.values
  rw [hrow] at hcells hfield hgaps hwide ⊢
  have hcell : IsField cell := hfield _ List.mem_cons_self
  have hrest : ∀ cell ∈ cells, 1 ≤ cell.1 ∧ IsField cell.2 := fun other hother =>
    ⟨hgaps other (List.mem_cons_of_mem _ hother), hfield other (List.mem_cons_of_mem _ hother)⟩
  refine ⟨groupCells [cell] cells, mem_groupCells (List.cons_ne_nil _ _),
    groupCells_flatten [cell] cells, ?_⟩
  by_cases hname : name.dropWhile isTrimmed = []
  · rw [trimCopy_blank_row hcell (fun other hother => (hrest other hother).2) hname, hname,
      splitMultiSpace_cells hcell hrest]
    rfl
  · rw [trimCopy_row hcells hfield hname, splitMultiSpace_spaced _ (hwide _ rfl) hcell hrest]

/-- The numbers of a row are told apart. -/
theorem PlainCells.parts (hheader : PlainHeader header) (h : PlainCells header row) (name : Text) :
    allParts (splitMultiSpace (trimCopy (name ++ spaced row.cells))) =
      allParts (splitMultiSpace (name.dropWhile isTrimmed)) ++ row.values := by
  obtain ⟨groups, hne, hflat, hsplit⟩ := h.split hheader name
  rw [hsplit, allParts_append, allParts_groups hne, hflat]
  intro group hgroup part hpart
  have hvalue : part ∈ row.values := hflat ▸ List.mem_flatten.mpr ⟨group, hgroup, hpart⟩
  obtain ⟨cell, hcell, rfl⟩ := List.mem_map.mp hvalue
  exact h.numerals cell hcell

theorem PlainCells.fields_length (h : PlainCells header row) (field : Text) :
    header.fields.length = (field :: row.values).length := by
  simp [TableLine.values, TableLine.fields, h.length]

/-- A row whose name is one field is recorded under its pid. -/
theorem parseRow_single (hasSuper : Bool) (hheader : PlainHeader header)
    (h : PlainCells header row) {trimmed field : Text}
    (hparts : allParts (splitMultiSpace trimmed) = field :: row.values) (amp : AmpData) :
    parseRow hasSuper header.fields trimmed amp =
      recordRow hasSuper (rowOf header.fields (field :: row.values)) (pidUnder header row) amp := by
  have hlength := h.fields_length field
  have hsplit := splitMergedNumericFields_total (List.append_nil (splitMultiSpace trimmed)).symm
  rw [hparts, List.length_nil, Nat.add_zero, List.append_nil, ← hlength] at hsplit
  have hpid := h.pid.1
  unfold parseRow
  dsimp only
  rw [hsplit, if_neg (not_not.mpr hlength.symm), rowPid_eq hheader h]
  dsimp only
  rw [if_neg (by omega)]

/-- A row of too few fields counts for nothing. -/
theorem parseRow_short (hasSuper : Bool) {columns : List Text} {trimmed : Text}
    (h : (allParts (splitMultiSpace trimmed)).length < columns.length) (amp : AmpData) :
    parseRow hasSuper columns trimmed amp = amp := by
  unfold parseRow
  dsimp only
  rw [if_pos (splitMergedNumericFields_short h)]

theorem PlainName.isField {name : Text} (h : PlainName name) : IsField name := by
  obtain ⟨parts, hne, hwords, rfl, _⟩ := h.words
  exact IsField.joinWords hne fun part hpart => (hwords part hpart).isField

theorem PlainName.of_word {name : Text} (hword : IsWord name)
    (h : startsWith name (str "****") = false ∧ startsWith name (str "Name") = false ∧
      contains name sectionMark = false) : PlainName name := by
  refine ⟨⟨[name], List.cons_ne_nil _ _, ?_, (joinWords_singleton name).symm, ?_⟩, h.1, h.2.1,
    h.2.2⟩
  · intro part hpart
    rw [List.mem_singleton.mp hpart]
    exact hword
  · exact fun htwo => absurd htwo.1 (by simp)

theorem PlainName.parts {name : Text} (h : PlainName name) :
    allParts (splitMultiSpace name) = [name] := by
  rw [h.isField.splitMultiSpace_eq]
  refine allParts_eq_self fun field hfield => ?_
  rw [List.mem_singleton.mp hfield]
  obtain ⟨parts, _, hwords, rfl, hnumbers⟩ := h.words
  unfold splitNumericSubfields
  rw [words_joinWords hwords]
  refine if_neg fun hsplit => hnumbers ?_
  obtain ⟨hall, htwo⟩ := Bool.and_eq_true_iff.mp hsplit
  exact ⟨of_decide_eq_true htwo, List.all_eq_true.mp hall⟩

theorem PlainHeader.fields_ne (header : TableLine) : header.fields ≠ [] := List.cons_ne_nil _ _

theorem scanLine_plain (hasSuper : Bool) (hheader : PlainHeader header)
    (hname : PlainName row.first) (h : PlainCells header row) (amp : AmpData) :
    scanLine hasSuper ⟨true, header.fields, amp⟩ row.text =
      some ⟨true, header.fields,
        recordRow hasSuper (rowOf header.fields row.fields) (pidUnder header row) amp⟩ := by
  have hstem := dropWhile_isTrimmed hname.isField.first
  have hparts := h.parts hheader row.first
  rw [hstem, hname.parts] at hparts
  have hrow := scanLine_row hasSuper hheader h row.first _ (PlainHeader.fields_ne header) amp
  unfold TableLine.text
  rw [hrow]
  dsimp only
  rw [hstem, hname.mark, if_neg Bool.false_ne_true, hname.stars, if_neg Bool.false_ne_true,
    hname.header, Bool.false_and, if_neg Bool.false_ne_true,
    parseRow_single hasSuper hheader h hparts]
  rfl

/-! ## The table -/

theorem scanLines_some {hasSuper : Bool} {s next : TaskScan} {line : Text}
    (h : scanLine hasSuper s line = some next) (lines : List Text) :
    scanLines hasSuper (line :: lines) s = scanLines hasSuper lines next := by
  rw [scanLines, h]

theorem scanLines_none {hasSuper : Bool} {s : TaskScan} {line : Text}
    (h : scanLine hasSuper s line = none) (lines : List Text) :
    scanLines hasSuper (line :: lines) s = s.result := by
  rw [scanLines, h]

/-- Lines outside the section are passed over. -/
theorem scanLines_before (hasSuper : Bool) {before : List Text}
    (h : ∀ line ∈ before, contains (trimCopy line) sectionMark = false) (lines : List Text) :
    scanLines hasSuper (before ++ lines) {} = scanLines hasSuper lines {} := by
  induction before with
  | nil => rfl
  | cons line before ih =>
    have hstep : scanLine hasSuper {} line = some {} := by
      unfold scanLine
      dsimp only
      rw [h line List.mem_cons_self, if_neg Bool.false_ne_true]
      rfl
    rw [List.cons_append, scanLines_some hstep]
    exact ih fun other hother => h other (List.mem_cons_of_mem line hother)

/-- The section ends with its frame. -/
theorem scanLines_after (hasSuper : Bool) {before after : List Text}
    (h : PlainFrame before after) (columns : List Text) (amp : AmpData) :
    scanLines hasSuper after ⟨true, columns, amp⟩ = amp := by
  cases after with
  | nil => rfl
  | cons line after =>
    obtain ⟨hstars, hmark⟩ := h.stop line rfl
    have hstep : scanLine hasSuper ⟨true, columns, amp⟩ line = none := by
      unfold scanLine
      dsimp only
      rw [hmark, if_neg Bool.false_ne_true, hstars]
      rfl
    rw [scanLines_none hstep]

theorem newline_spaced {start : Text} {cells : List (ℕ × Text)} (hstart : '\n' ∉ start)
    (h : ∀ cell ∈ cells, '\n' ∉ cell.2) : '\n' ∉ start ++ spaced cells := by
  intro hmem
  rcases List.mem_append.mp hmem with hfirst | hrest
  · exact hstart hfirst
  · obtain ⟨cell, hcell, hin⟩ := List.mem_flatMap.mp hrest
    rcases List.mem_append.mp hin with hgap | htext
    · exact absurd (List.eq_of_mem_replicate hgap) (by decide)
    · exact h cell hcell htext

theorem IsWord.newline {part : Text} (h : IsWord part) : '\n' ∉ part :=
  fun hmem => absurd (h.2 '\n' hmem) (by decide)

theorem PlainCells.newline (h : PlainCells header row) {name : Text} (hname : '\n' ∉ name) :
    '\n' ∉ name ++ spaced row.cells :=
  newline_spaced hname fun cell hcell => (h.numerals cell hcell).isWord.newline

theorem PlainName.newline {name : Text} (h : PlainName name) : '\n' ∉ name := by
  obtain ⟨parts, _, hwords, rfl, _⟩ := h.words
  intro hmem
  rcases mem_joinWords hmem with hblank | ⟨part, hpart, hin⟩
  · exact absurd hblank (by decide)
  · exact (hwords part hpart).newline hin

/-- Up to the rows: they are read with the columns of the header. -/
theorem parseAmpData_table (hasSuper : Bool) {table : TaskTable}
    (hframe : PlainFrame table.before table.after) (hheader : PlainHeader table.header)
    (hmark : ∀ column ∈ table.header.fields, contains column sectionMark = false)
    (hrows : ∀ row ∈ table.rows, '\n' ∉ row.text) :
    parseAmpData table.text hasSuper =
      scanLines hasSuper (table.rows.map TableLine.text ++ table.after)
        ⟨true, table.header.fields, {}⟩ := by
  have hheaderLine : '\n' ∉ table.header.text :=
    newline_spaced (hheader.columns _ List.mem_cons_self).newline fun cell hcell =>
      (hheader.columns _ (List.mem_cons_of_mem _ (List.mem_map_of_mem hcell))).newline
  have hlines : ∀ line ∈ table.lines, '\n' ∉ line := by
    intro line hline
    unfold TaskTable.lines at hline
    simp only [List.mem_append, List.mem_cons] at hline
    rcases hline with hbefore | rfl | rfl | hrow | hafter
    · exact hframe.newline line (List.mem_append_left _ hbefore)
    · decide
    · exact hheaderLine
    · obtain ⟨row, hmem, rfl⟩ := List.mem_map.mp hrow
      exact hrows row hmem
    · exact hframe.newline line (List.mem_append_right _ hafter)
  have hstart : scanLine hasSuper {} sectionMark = some ⟨true, [], {}⟩ := by
    unfold scanLine
    dsimp only
    rw [if_pos (by decide)]
  unfold parseAmpData TaskTable.text
  rw [getLines_joinLines hlines]
  unfold TaskTable.lines
  rw [scanLines_before hasSuper hframe.start, scanLines_some hstart,
    scanLines_some (scanLine_header hasSuper hheader hmark [] {})]

/-- Every row is recorded. -/
theorem scanLines_rows (hasSuper : Bool) (hheader : PlainHeader header) {rows : List TableLine}
    (hnames : ∀ row ∈ rows, PlainName row.first) (hcells : ∀ row ∈ rows, PlainCells header row)
    (lines : List Text) (amp : AmpData) :
    scanLines hasSuper (rows.map TableLine.text ++ lines) ⟨true, header.fields, amp⟩ =
      scanLines hasSuper lines ⟨true, header.fields, rows.foldl (fun amp row =>
        recordRow hasSuper (rowOf header.fields row.fields) (pidUnder header row) amp) amp⟩ := by
  induction rows generalizing amp with
  | nil => rfl
  | cons row rows ih =>
    rw [List.map_cons, List.cons_append, scanLines_some (scanLine_plain hasSuper hheader
      (hnames row List.mem_cons_self) (hcells row List.mem_cons_self) amp)]
    exact ih (fun other hother => hnames other (List.mem_cons_of_mem row hother))
      (fun other hother => hcells other (List.mem_cons_of_mem row hother)) _

/-- The parser says what the rows say, so the gaps between the numbers do not matter. -/
theorem parseAmpData_data (hasSuper : Bool) {table : TaskTable} (h : PlainTable table)
    (hmark : ∀ column ∈ table.header.fields, contains column sectionMark = false) :
    parseAmpData table.text hasSuper = table.data hasSuper := by
  have hrows : ∀ row ∈ table.rows, '\n' ∉ row.text := fun row hrow =>
    (h.cells row hrow).newline (h.names row hrow).newline
  rw [parseAmpData_table hasSuper h.frame h.header hmark hrows,
    scanLines_rows hasSuper h.header h.names h.cells, scanLines_after hasSuper h.frame]
  rfl

theorem TableLine.values_eq {line other : TableLine} (h : line.fields = other.fields) :
    line.values = other.values := (List.cons.inj h).2

theorem pidUnder_eq {other row' : TableLine} (hheader : header.fields = other.fields)
    (hrow : row.fields = row'.fields) : pidUnder header row = pidUnder other row' := by
  unfold pidUnder
  rw [TableLine.values_eq hheader, TableLine.values_eq hrow]

theorem TaskTable.data_eq (hasSuper : Bool) {table other : TaskTable}
    (h : table.SameFields other) : table.data hasSuper = other.data hasSuper := by
  have hrows : ∀ (rows rows' : List TableLine) (amp : AmpData),
      rows.map TableLine.fields = rows'.map TableLine.fields →
      rows.foldl (fun amp row => recordRow hasSuper (rowOf table.header.fields row.fields)
        (pidUnder table.header row) amp) amp =
      rows'.foldl (fun amp row => recordRow hasSuper (rowOf other.header.fields row.fields)
        (pidUnder other.header row) amp) amp := by
    intro rows
    induction rows with
    | nil =>
      intro rows' amp hsame
      rw [List.map_eq_nil_iff.mp hsame.symm]
      rfl
    | cons row rows ih =>
      intro rows' amp hsame
      obtain ⟨row', rest, rfl, hrow, hrest⟩ := List.map_eq_cons_iff.mp hsame.symm
      rw [List.foldl_cons, List.foldl_cons, h.1, hrow, pidUnder_eq h.1 hrow.symm]
      have hnext := ih rest (recordRow hasSuper (rowOf other.header.fields row.fields)
        (pidUnder other.header row') amp) hrest.symm
      rw [← hnext, h.1]
  exact hrows table.rows other.rows {} h.2

theorem mem_coreMix_recordRow (hasSuper : Bool) (fields : TreeMap Text Text) (own pid : ℤ)
    (amp : AmpData) :
    pid ∈ (recordRow hasSuper fields own amp).coreMix ↔ own = pid ∨ pid ∈ amp.coreMix := by
  show pid ∈ amp.coreMix.insert own _ ↔ _
  rw [TreeMap.mem_insert, LawfulEqCmp.compare_eq_iff_eq]

theorem mem_coreMix_data (hasSuper : Bool) (table : TaskTable) (pid : ℤ) :
    pid ∈ (table.data hasSuper).coreMix ↔ ∃ row ∈ table.rows, pidUnder table.header row = pid := by
  have hfold : ∀ (rows : List TableLine) (amp : AmpData),
      pid ∈ (rows.foldl (fun amp row => recordRow hasSuper
        (rowOf table.header.fields row.fields) (pidUnder table.header row) amp) amp).coreMix ↔
        pid ∈ amp.coreMix ∨ ∃ row ∈ rows, pidUnder table.header row = pid := by
    intro rows
    induction rows with
    | nil => simp
    | cons row rows ih =>
      intro amp
      rw [List.foldl_cons, ih, mem_coreMix_recordRow]
      simp only [List.mem_cons, exists_eq_or_imp]
      tauto
  unfold TaskTable.data
  rw [hfold]
  exact ⟨fun h => h.resolve_left fun hempty => absurd hempty TreeMap.not_mem_emptyc, .inr⟩

/-- Two printings of one table are read alike, and as its rows: no number of a row is misplaced
however the numbers run together, and every row is recorded. -/
theorem merged_columns_agree (hasSuper : Bool) (table other : TaskTable) (htable : PlainTable table)
    (hother : PlainTable other) (hsame : table.SameFields other)
    (hmark : ∀ column ∈ table.header.fields, contains column sectionMark = false) :
    parseAmpData table.text hasSuper = parseAmpData other.text hasSuper ∧
      parseAmpData table.text hasSuper = table.data hasSuper ∧
      ∀ pid, pid ∈ (parseAmpData table.text hasSuper).coreMix ↔
        ∃ row ∈ table.rows, pidUnder table.header row = pid := by
  have hdata := parseAmpData_data hasSuper htable hmark
  have hotherData := parseAmpData_data hasSuper hother (hsame.1 ▸ hmark)
  refine ⟨?_, hdata, fun pid => ?_⟩
  · rw [hdata, hotherData, TaskTable.data_eq hasSuper hsame]
  · rw [hdata]
    exact mem_coreMix_data hasSuper table pid

/-- Two numbers of the only row, with a gap of this width between them. -/
def swiftTable (gap : ℕ) : TaskTable where
  header := ⟨str "Name", [(14, str "ID"), (2, str "CPU ms/s"), (2, str "PCPU ms/s"),
    (2, str "Energy Impact")]⟩
  rows := [⟨str "swift-build", [(7, str "222"), (6, str "100.0"), (gap, str "75.0"),
    (14, str "9")]⟩]
  after := [str "****"]

theorem swiftTable_plain {gap : ℕ} (h : gap = 1 ∨ gap = 12) : PlainTable (swiftTable gap) := by
  have hname : PlainName (str "swift-build") := .of_word (by decide) (by decide)
  have hframe : PlainFrame [] [str "****"] := by
    refine ⟨by decide, by decide, ?_⟩
    rintro line ⟨⟩
    decide
  have hheader : PlainHeader (swiftTable 1).header :=
    ⟨by decide, by decide, by decide, by decide, by decide, by decide⟩
  refine ⟨hframe, hheader, fun row hrow => ?_, fun row hrow => ?_⟩
  · rw [List.mem_singleton.mp hrow]
    exact hname
  · rw [List.mem_singleton.mp hrow]
    rcases h with rfl | rfl
    · decide
    · decide

theorem merged_columns_agree_swift :
    parseAmpData (swiftTable 1).text false = parseAmpData (swiftTable 12).text false ∧
      222 ∈ (parseAmpData (swiftTable 1).text false).coreMix := by
  obtain ⟨hsame, _, hpids⟩ := merged_columns_agree false (swiftTable 1) (swiftTable 12)
    (swiftTable_plain (.inl rfl)) (swiftTable_plain (.inr rfl)) ⟨rfl, rfl⟩ (by decide)
  exact ⟨hsame, (hpids 222).mpr ⟨_, List.mem_singleton_self _, by decide⟩⟩

/-- A column named like the start of the section. -/
def markedTable : TaskTable where
  header := ⟨str "Name", [(2, str "ID"), (2, str "CPU ms/s"), (2, sectionMark)]⟩
  rows := [⟨str "a", [(2, str "1"), (2, str "5"), (2, str "0")]⟩]

/-- The header line is then taken for the start of the section, and every row is lost. -/
theorem marked_column_loses_rows :
    PlainTable markedTable ∧ markedTable.SameFields markedTable ∧
      ¬ ∀ pid, pid ∈ (parseAmpData markedTable.text false).coreMix ↔
        ∃ row ∈ markedTable.rows, pidUnder markedTable.header row = pid := by
  have hname : PlainName (str "a") := .of_word (by decide) (by decide)
  have hheader : PlainHeader markedTable.header :=
    ⟨by decide, by decide, by decide, by decide, by decide, by decide⟩
  refine ⟨⟨plainFrame_nil, hheader, fun row hrow => ?_, fun row hrow => ?_⟩, ⟨rfl, rfl⟩,
    fun hpids => ?_⟩
  · rw [List.mem_singleton.mp hrow]
    exact hname
  · rw [List.mem_singleton.mp hrow]
    decide
  · have hlost : 1 ∉ (parseAmpData markedTable.text false).coreMix := by decide
    exact hlost ((hpids 1).mpr ⟨_, List.mem_singleton_self _, by decide⟩)

end Mtop
