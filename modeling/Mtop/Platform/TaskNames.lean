import Mtop.Platform.TaskTable

/-! What the name of one process can do to the metrics of the others. The name is printed in front of
the numbers of its row; which names stay within their row is said exactly. -/
namespace Mtop
open Cxx Std
set_option autoImplicit false
unseal str

/-! ## Names -/

/-- A name without the blanks before it. -/
def stem (name : Text) : Text := name.dropWhile isTrimmed

/-- At most one field: no wide gap inside, and not several numbers. -/
structure OneField (text : Text) : Prop where
  gaps : contains (text.rdropWhile (· == ' ')) (str "  ") = false
  numbers : splitNumericSubfields (trimCopy text) = []

instance (text : Text) : Decidable (OneField text) :=
  decidable_of_iff (contains (text.rdropWhile (· == ' ')) (str "  ") = false ∧
      splitNumericSubfields (trimCopy text) = [])
    ⟨fun ⟨gaps, numbers⟩ => ⟨gaps, numbers⟩, fun h => ⟨h.gaps, h.numbers⟩⟩

/-- A row of this name reads as the line of columns. -/
def isHeaderName (name : Text) : Bool :=
  !contains (stem name) sectionMark && startsWith (stem name) (str "Name") &&
    contains (stem name) (str "CPU ms/s")

/-- The name stays within its row: it hides the row, or it is none of the lines that control the
section and is read as one field. -/
def SafeName (name : Text) : Prop :=
  contains (stem name) sectionMark = true ∨
    startsWith (stem name) (str "****") = false ∧ isHeaderName name = false ∧ OneField (stem name)

instance (name : Text) : Decidable (SafeName name) :=
  inferInstanceAs (Decidable (_ ∨ _))

/-- A table with one row whose name is left open. -/
structure NameSlot where
  before : List Text := []
  header : TableLine
  earlier : List TableLine := []
  cells : List (ℕ × Text)
  later : List TableLine := []
  after : List Text := []

def NameSlot.fill (slot : NameSlot) (name : Text) : TaskTable where
  before := slot.before
  header := slot.header
  rows := slot.earlier ++ ⟨name, slot.cells⟩ :: slot.later
  after := slot.after

/-- The pid of the open row. -/
def NameSlot.own (slot : NameSlot) : ℤ := pidUnder slot.header ⟨[], slot.cells⟩

/-- A table as it is printed, with any names of one line in the other rows; only, none before the open
row is a line of columns. -/
structure PlainSlot (slot : NameSlot) : Prop where
  frame : PlainFrame slot.before slot.after
  header : PlainHeader slot.header
  marks : ∀ column ∈ slot.header.fields, contains column sectionMark = false
  cells : PlainCells slot.header ⟨[], slot.cells⟩
  others : ∀ row ∈ slot.earlier ++ slot.later, PlainCells slot.header row ∧ '\n' ∉ row.first
  earlier : ∀ row ∈ slot.earlier, isHeaderName row.first = false

/-- Two results with the same entries for a pid. -/
structure SameEntries (a b : AmpData) (pid : ℤ) : Prop where
  coreMix : a.coreMix[pid]? = b.coreMix[pid]?
  io : a.io[pid]? = b.io[pid]?
  power : a.power[pid]? = b.power[pid]?

/-- In whichever table and row a process bears this name, the entries of the other processes are those
under any safe name. -/
def KeepsApart (name : Text) : Prop :=
  ∀ (hasSuper : Bool) (slot : NameSlot) (other : Text), PlainSlot slot → other ≠ [] →
    '\n' ∉ other → SafeName other → ∀ pid, pid ≠ slot.own →
      SameEntries (parseAmpData (slot.fill name).text hasSuper)
        (parseAmpData (slot.fill other).text hasSuper) pid

/-! ## One field -/

theorem isChain_of_no_gap {text : Text} (h : ¬ [' ', ' '] <:+: text) :
    text.IsChain fun a b => ¬ (a = ' ' ∧ b = ' ') := by
  induction text with
  | nil => exact .nil
  | cons c text ih =>
    rw [List.infix_cons_iff, not_or] at h
    cases text with
    | nil => exact .singleton c
    | cons d text =>
      refine List.isChain_cons_cons.mpr ⟨?_, ih h.2⟩
      rintro ⟨rfl, rfl⟩
      exact h.1 (by simp)

theorem stem_first (name : Text) : ∀ c ∈ (stem name).head?, isTrimmed c = false := by
  intro c hc
  have hnot := List.head?_dropWhile_not isTrimmed name
  rw [show name.dropWhile isTrimmed = stem name from rfl, hc] at hnot
  simpa using hnot

theorem exists_trailing (text : Text) :
    ∃ gap, text = text.rdropWhile (· == ' ') ++ List.replicate gap ' ' := by
  refine ⟨(text.rtakeWhile (· == ' ')).length, ?_⟩
  have hblank : text.rtakeWhile (· == ' ') =
      List.replicate (text.rtakeWhile (· == ' ')).length ' ' :=
    List.eq_replicate_of_mem fun c hc => by simpa using List.mem_rtakeWhile_imp hc
  rw [← hblank]
  exact List.rdropWhile_append_rtakeWhile.symm

theorem trimCopy_trailing (text : Text) (gap : ℕ) :
    trimCopy (text ++ List.replicate gap ' ') = trimCopy text := by
  induction gap with
  | zero => rw [List.replicate_zero, List.append_nil]
  | succ gap ih => rw [List.replicate_succ', ← List.append_assoc, trimCopy_blank, ih]

/-- A wide gap between two other characters makes two fields. -/
theorem two_le_splitMultiSpace {body : Text} (hfirst : body.head? ≠ some ' ')
    (hlast : body.getLast? ≠ some ' ') (h : [' ', ' '] <:+: body) :
    2 ≤ (splitMultiSpace body).length := by
  obtain ⟨before, after, rfl⟩ := h
  have hbefore : ∃ c ∈ before, c ≠ ' ' := by
    cases before with
    | nil => exact absurd rfl hfirst
    | cons c before => exact ⟨c, List.mem_cons_self, fun hc => hfirst (by rw [hc]; rfl)⟩
  have hafter : ∃ c ∈ after, c ≠ ' ' := by
    rcases List.eq_nil_or_concat after with rfl | ⟨init, c, rfl⟩
    · exact absurd (by simp) hlast
    · refine ⟨c, by simp, fun hc => hlast ?_⟩
      rw [List.concat_eq_append, ← List.append_assoc, List.getLast?_concat, hc]
  have hsplit := splitMultiSpace_gap before (Nat.le_refl 2) after
  rw [← List.append_assoc] at hsplit
  rw [show [' ', ' '] = List.replicate 2 ' ' from rfl, hsplit, List.length_append]
  have hleft := List.length_pos_iff.mpr (finish_foldl_ne_nil (s := {}) (.inr hbefore))
  have hright := List.length_pos_iff.mpr (finish_foldl_ne_nil
    (s := ⟨[], [], (before.foldl scanChar {}).spaceRun + 2⟩) (.inr hafter))
  have hdef : splitMultiSpace before = (before.foldl scanChar {}).finish := rfl
  rw [hdef]
  omega

theorem splitMultiSpace_body {body : Text} (hne : body ≠ []) (hfirst : body.head? ≠ some ' ')
    (hlast : body.getLast? ≠ some ' ') (h : ¬ [' ', ' '] <:+: body) :
    splitMultiSpace body = [trimCopy body] := by
  unfold splitMultiSpace
  rw [foldl_single [] hne (isChain_of_no_gap h) hlast [] 0 fun hhead => absurd hhead hfirst]
  unfold FieldScan.finish
  dsimp only
  rw [List.nil_append, if_neg hne, List.nil_append]

theorem length_allParts_singleton (field : Text) :
    (allParts [field]).length ≤ 1 ↔ splitNumericSubfields field = [] := by
  rw [allParts_cons, show allParts [] = [] from rfl, List.append_nil]
  constructor
  · intro hlength
    by_contra hsplit
    have htwo := two_le_splitNumericSubfields hsplit
    unfold fieldParts at hlength
    rw [if_neg hsplit] at hlength
    omega
  · intro hsplit
    rw [fieldParts_eq hsplit]
    exact le_rfl

theorem getLast?_rdropWhile_blank (line : Text) :
    (line.rdropWhile (· == ' ')).getLast? ≠ some ' ' := by
  intro hlast
  have hne : line.rdropWhile (· == ' ') ≠ [] := by
    intro hempty
    rw [hempty] at hlast
    cases hlast
  have hnot := List.rdropWhile_last_not (· == ' ') line hne
  rw [List.getLast?_eq_some_getLast hne] at hlast
  rw [Option.some.inj hlast] at hnot
  exact hnot rfl

/-- The condition on a name says that it is split into at most one field. -/
theorem oneField_iff (name : Text) :
    OneField (stem name) ↔ (allParts (splitMultiSpace (stem name))).length ≤ 1 := by
  obtain ⟨gap, htext⟩ := exists_trailing (stem name)
  have hfirst := stem_first name
  have hbodyLast := getLast?_rdropWhile_blank (stem name)
  have hiff : OneField (stem name) ↔
      contains ((stem name).rdropWhile (· == ' ')) (str "  ") = false ∧
        splitNumericSubfields (trimCopy (stem name)) = [] :=
    ⟨fun h => ⟨h.gaps, h.numbers⟩, fun h => ⟨h.1, h.2⟩⟩
  rw [hiff]
  generalize (stem name).rdropWhile (· == ' ') = body at htext hbodyLast ⊢
  rw [htext] at hfirst ⊢
  rw [trimCopy_trailing, splitMultiSpace_trailing]
  have hbodyFirst : body.head? ≠ some ' ' := by
    intro hhead
    refine absurd (hfirst ' ' ?_) (by decide)
    rw [List.head?_append, hhead]
    rfl
  by_cases hbody : body = []
  · subst hbody
    exact ⟨fun _ => Nat.zero_le 1, fun _ => ⟨by decide, by decide⟩⟩
  by_cases hgap : [' ', ' '] <:+: body
  · have hfound : contains body (str "  ") = true := decide_eq_true (by rw [str_eq]; exact hgap)
    have htwo := (two_le_splitMultiSpace hbodyFirst hbodyLast hgap).trans
      (length_le_allParts (splitMultiSpace body))
    rw [hfound]
    exact ⟨fun h => absurd h.1 (by decide), fun h => by omega⟩
  · have hfound : contains body (str "  ") = false := decide_eq_false (by rw [str_eq]; exact hgap)
    rw [hfound, splitMultiSpace_body hbody hbodyFirst hbodyLast hgap,
      length_allParts_singleton]
    exact ⟨And.right, fun h => ⟨rfl, h⟩⟩

/-! ## Two runs side by side -/

/-- Two results that agree except for one pid. -/
def AgreeOff (own : ℤ) (a b : AmpData) : Prop := ∀ pid, pid ≠ own → SameEntries a b pid

theorem AgreeOff.refl (own : ℤ) (amp : AmpData) : AgreeOff own amp amp :=
  fun _ _ => ⟨rfl, rfl, rfl⟩

theorem AgreeOff.symm {own : ℤ} {a b : AmpData} (h : AgreeOff own a b) : AgreeOff own b a :=
  fun pid hpid => ⟨(h pid hpid).coreMix.symm, (h pid hpid).io.symm, (h pid hpid).power.symm⟩

theorem AgreeOff.trans {own : ℤ} {a b c : AmpData} (hab : AgreeOff own a b)
    (hbc : AgreeOff own b c) : AgreeOff own a c := fun pid hpid =>
  ⟨(hab pid hpid).coreMix.trans (hbc pid hpid).coreMix, (hab pid hpid).io.trans (hbc pid hpid).io,
    (hab pid hpid).power.trans (hbc pid hpid).power⟩

theorem insert_agree {a b : TreeMap ℤ Text} {pid : ℤ} (h : a[pid]? = b[pid]?) (key : ℤ)
    (text : Text) : (a.insert key text)[pid]? = (b.insert key text)[pid]? := by
  rw [TreeMap.getElem?_insert, TreeMap.getElem?_insert, h]

theorem insert_off {a : TreeMap ℤ Text} {own pid : ℤ} (h : pid ≠ own) (text : Text) :
    (a.insert own text)[pid]? = a[pid]? := by
  rw [TreeMap.getElem?_insert, if_neg (by simpa using h.symm)]

variable {own : ℤ} {a b : AmpData}

/-- Recording the same row keeps two results in agreement. -/
theorem recordRow_agree (hasSuper : Bool) (row : TreeMap Text Text) (pid : ℤ)
    (h : AgreeOff own a b) : AgreeOff own (recordRow hasSuper row pid a) (recordRow hasSuper row pid b) := by
  intro other hother
  obtain ⟨hmix, hio, hpower⟩ := h other hother
  refine ⟨insert_agree hmix pid _, ?_, ?_⟩
  · unfold recordRow
    dsimp only
    split_ifs
    · exact insert_agree hio pid _
    · exact hio
  · unfold recordRow
    dsimp only
    cases powerText row with
    | none => exact hpower
    | some text => exact insert_agree hpower pid text

/-- A row is recorded under its own pid only. -/
theorem recordRow_off (hasSuper : Bool) (row : TreeMap Text Text) (own : ℤ) (amp : AmpData) :
    AgreeOff own amp (recordRow hasSuper row own amp) := by
  intro pid hpid
  refine ⟨(insert_off hpid _).symm, ?_, ?_⟩
  · unfold recordRow
    dsimp only
    split_ifs
    · exact (insert_off hpid _).symm
    · rfl
  · unfold recordRow
    dsimp only
    cases powerText row with
    | none => rfl
    | some text => exact (insert_off hpid text).symm

theorem parseRow_agree (hasSuper : Bool) (columns : List Text) (trimmed : Text)
    (h : AgreeOff own a b) :
    AgreeOff own (parseRow hasSuper columns trimmed a) (parseRow hasSuper columns trimmed b) := by
  unfold parseRow
  dsimp only
  split_ifs
  · exact h
  · cases rowPid (rowOf columns _) with
    | none => exact h
    | some pid =>
      dsimp only
      split_ifs
      · exact h
      · exact recordRow_agree hasSuper _ pid h

/-- What a line does to the section and the columns depends on these alone. -/
theorem scanLine_agree (hasSuper inTasks : Bool) (columns : List Text) (line : Text)
    (h : AgreeOff own a b) :
    (scanLine hasSuper ⟨inTasks, columns, a⟩ line = none ∧
        scanLine hasSuper ⟨inTasks, columns, b⟩ line = none) ∨
      ∃ inTasks' columns' a' b', AgreeOff own a' b' ∧
        scanLine hasSuper ⟨inTasks, columns, a⟩ line = some ⟨inTasks', columns', a'⟩ ∧
        scanLine hasSuper ⟨inTasks, columns, b⟩ line = some ⟨inTasks', columns', b'⟩ := by
  unfold scanLine
  dsimp only
  split_ifs
  · exact .inr ⟨_, _, a, b, h, rfl, rfl⟩
  · exact .inr ⟨_, _, a, b, h, rfl, rfl⟩
  · exact .inl ⟨rfl, rfl⟩
  · exact .inr ⟨_, _, a, b, h, rfl, rfl⟩
  · exact .inr ⟨_, _, a, b, h, rfl, rfl⟩
  · exact .inr ⟨_, _, a, b, h, rfl, rfl⟩
  · exact .inr ⟨_, _, _, _, parseRow_agree hasSuper columns _ h, rfl, rfl⟩

theorem scanLines_agree (hasSuper : Bool) (lines : List Text) (inTasks : Bool)
    (columns : List Text) (h : AgreeOff own a b) :
    AgreeOff own (scanLines hasSuper lines ⟨inTasks, columns, a⟩)
      (scanLines hasSuper lines ⟨inTasks, columns, b⟩) := by
  induction lines generalizing inTasks columns a b with
  | nil => exact h
  | cons line lines ih =>
    rcases scanLine_agree hasSuper inTasks columns line h with
      ⟨hleft, hright⟩ | ⟨inTasks', columns', a', b', hnext, hleft, hright⟩
    · rw [scanLines_none hleft, scanLines_none hright]
      exact h
    · rw [scanLines_some hleft, scanLines_some hright]
      exact ih inTasks' columns' hnext

/-! ## Safe names -/

variable {header row : TableLine}

theorem isHeaderName_false {name : Text} (hmark : contains (stem name) sectionMark = false)
    (h : isHeaderName name = false) :
    (startsWith (stem name) (str "Name") && contains (stem name) (str "CPU ms/s")) = false := by
  unfold isHeaderName at h
  rwa [hmark, Bool.not_false, Bool.true_and] at h

/-- The row of a safe name records nothing, or something under its own pid. -/
theorem scanLine_safe (hasSuper : Bool) (hheader : PlainHeader header)
    (h : PlainCells header row) {name : Text} (hname : SafeName name) (amp : AmpData) :
    ∃ amp', AgreeOff (pidUnder header row) amp amp' ∧
      scanLine hasSuper ⟨true, header.fields, amp⟩ (name ++ spaced row.cells) =
        some ⟨true, header.fields, amp'⟩ := by
  rw [scanLine_row hasSuper hheader h name _ (PlainHeader.fields_ne header) amp]
  dsimp only
  rw [show name.dropWhile isTrimmed = stem name from rfl]
  by_cases hmark : contains (stem name) sectionMark = true
  · exact ⟨amp, AgreeOff.refl _ amp, if_pos hmark⟩
  obtain ⟨hstars, hcolumns, hfield⟩ := hname.resolve_left hmark
  have hmark := Bool.eq_false_of_not_eq_true hmark
  rw [hmark, if_neg Bool.false_ne_true, hstars, if_neg Bool.false_ne_true,
    isHeaderName_false hmark hcolumns, if_neg Bool.false_ne_true]
  refine ⟨_, ?_, rfl⟩
  have hlength := (oneField_iff name).mp hfield
  have hparts := h.parts hheader name
  rw [show name.dropWhile isTrimmed = stem name from rfl] at hparts
  cases hfields : allParts (splitMultiSpace (stem name)) with
  | nil =>
    rw [hfields, List.nil_append] at hparts
    have hshort : (allParts (splitMultiSpace (trimCopy (name ++ spaced row.cells)))).length <
        header.fields.length := by
      rw [hparts, h.fields_length []]
      exact Nat.lt_succ_self _
    rw [parseRow_short hasSuper hshort]
    exact AgreeOff.refl _ amp
  | cons field rest =>
    rw [hfields] at hlength hparts
    obtain rfl : rest = [] := List.length_eq_zero_iff.mp (by simpa using hlength)
    rw [parseRow_single hasSuper hheader h hparts]
    exact recordRow_off hasSuper _ _ amp

/-- Before the open row, the section ends or its columns stay. -/
theorem scanLines_earlier (hasSuper : Bool) (hheader : PlainHeader header)
    {rows : List TableLine} (hcells : ∀ row ∈ rows, PlainCells header row)
    (hnames : ∀ row ∈ rows, isHeaderName row.first = false) (amp : AmpData) :
    (∃ amp', ∀ lines, scanLines hasSuper (rows.map TableLine.text ++ lines)
        ⟨true, header.fields, amp⟩ = amp') ∨
      ∃ amp', ∀ lines, scanLines hasSuper (rows.map TableLine.text ++ lines)
        ⟨true, header.fields, amp⟩ = scanLines hasSuper lines ⟨true, header.fields, amp'⟩ := by
  induction rows generalizing amp with
  | nil => exact .inr ⟨amp, fun _ => rfl⟩
  | cons row rows ih =>
    have hrow := scanLine_row hasSuper hheader (hcells row List.mem_cons_self) row.first _
      (PlainHeader.fields_ne header) amp
    have hrest := fun amp' => ih (fun other hother => hcells other (List.mem_cons_of_mem row hother))
      (fun other hother => hnames other (List.mem_cons_of_mem row hother)) amp'
    have hcolumns := hnames row List.mem_cons_self
    dsimp only at hrow
    rw [show row.first ++ spaced row.cells = row.text from rfl,
      show row.first.dropWhile isTrimmed = stem row.first from rfl] at hrow
    simp only [List.map_cons, List.cons_append]
    by_cases hmark : contains (stem row.first) sectionMark = true
    · rw [if_pos hmark] at hrow
      simp only [scanLines_some hrow]
      exact hrest amp
    rw [if_neg hmark] at hrow
    by_cases hstars : startsWith (stem row.first) (str "****") = true
    · rw [if_pos hstars] at hrow
      simp only [scanLines_none hrow]
      exact .inl ⟨amp, fun _ => rfl⟩
    rw [if_neg hstars, isHeaderName_false (Bool.eq_false_of_not_eq_true hmark) hcolumns,
      if_neg Bool.false_ne_true] at hrow
    simp only [scanLines_some hrow]
    exact hrest _

theorem NameSlot.newline {slot : NameSlot} (h : PlainSlot slot) {name : Text}
    (hname : '\n' ∉ name) : ∀ row ∈ (slot.fill name).rows, '\n' ∉ row.text := by
  intro row hrow
  rcases List.mem_append.mp hrow with hearlier | hrest
  · obtain ⟨hcells, hfirst⟩ := h.others row (List.mem_append_left _ hearlier)
    exact hcells.newline hfirst
  · rcases List.mem_cons.mp hrest with rfl | hlater
    · exact h.cells.newline hname
    · obtain ⟨hcells, hfirst⟩ := h.others row (List.mem_append_right _ hlater)
      exact hcells.newline hfirst

/-- From the open row on, a filled table is read with the columns of its header. -/
theorem parseAmpData_fill (hasSuper : Bool) {slot : NameSlot} (h : PlainSlot slot) {name : Text}
    (hname : '\n' ∉ name) :
    parseAmpData (slot.fill name).text hasSuper =
      scanLines hasSuper (slot.earlier.map TableLine.text ++ (name ++ spaced slot.cells) ::
        (slot.later.map TableLine.text ++ slot.after)) ⟨true, slot.header.fields, {}⟩ := by
  rw [parseAmpData_table hasSuper h.frame h.header h.marks (NameSlot.newline h hname)]
  show scanLines hasSuper ((slot.earlier ++ ⟨name, slot.cells⟩ :: slot.later).map TableLine.text ++
    slot.after) _ = _
  rw [List.map_append, List.append_assoc, List.map_cons, List.cons_append]
  rfl

theorem keepsApart_of_safe {name : Text} (hnewline : '\n' ∉ name) (h : SafeName name) :
    KeepsApart name := by
  intro hasSuper slot other hslot _ hother hsafe pid hpid
  rw [parseAmpData_fill hasSuper hslot hnewline, parseAmpData_fill hasSuper hslot hother]
  have hcells : ∀ row ∈ slot.earlier, PlainCells slot.header row := fun row hrow =>
    (hslot.others row (List.mem_append_left _ hrow)).1
  rcases scanLines_earlier hasSuper hslot.header hcells hslot.earlier {} with
    ⟨amp, hstop⟩ | ⟨amp, hgo⟩
  · rw [hstop, hstop]
    exact ⟨rfl, rfl, rfl⟩
  · obtain ⟨a, ha, hline⟩ := scanLine_safe hasSuper hslot.header hslot.cells h amp
    obtain ⟨b, hb, hline'⟩ := scanLine_safe hasSuper hslot.header hslot.cells hsafe amp
    rw [hgo, hgo, scanLines_some hline, scanLines_some hline']
    exact scanLines_agree hasSuper _ true _ (ha.symm.trans hb) pid hpid

end Mtop
