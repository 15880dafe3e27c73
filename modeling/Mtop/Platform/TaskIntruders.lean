import Mtop.Platform.TaskNames

/-! The names that reach beyond their row: each kind has a table in which it changes what is shown of
another process. -/
namespace Mtop
open Cxx Std
set_option autoImplicit false
unseal str

/-! ## Names that are control lines -/

/-- The open row is followed by the row of process 2. -/
def smallSlot : NameSlot where
  header := ⟨str "Name", [(2, str "ID"), (2, str "CPU ms/s")]⟩
  cells := [(2, str "1"), (2, str "5")]
  later := [⟨str "b", [(2, str "2"), (2, str "5")]⟩]

theorem smallSlot_header : PlainHeader smallSlot.header :=
  ⟨by decide, by decide, by decide, by decide, by decide, by decide⟩

theorem smallSlot_cells : PlainCells smallSlot.header ⟨[], smallSlot.cells⟩ := by decide

theorem smallSlot_victim :
    PlainCells smallSlot.header ⟨str "b", [(2, str "2"), (2, str "5")]⟩ := by
  decide

theorem smallSlot_plain : PlainSlot smallSlot where
  frame := plainFrame_nil
  header := smallSlot_header
  marks := by decide
  cells := smallSlot_cells
  others row hrow := by
    rw [List.mem_singleton.mp hrow]
    exact ⟨smallSlot_victim, by decide⟩
  earlier row hrow := absurd hrow List.not_mem_nil

theorem smallSlot_recorded : 2 ∈ (parseAmpData (smallSlot.fill (str "a")).text false).coreMix := by
  decide

/-- A name that costs process 2 its row is told from a safe one. -/
theorem not_keepsApart_of_lost {name : Text}
    (h : (parseAmpData (smallSlot.fill name).text false).coreMix = ∅) : ¬ KeepsApart name := by
  intro hkeeps
  have hsame := (hkeeps false smallSlot (str "a") smallSlot_plain (by decide)
    (by decide) (by decide) 2 (by decide)).coreMix
  rw [h, TreeMap.getElem?_emptyc] at hsame
  have hrecorded := smallSlot_recorded
  rw [TreeMap.mem_iff_isSome_getElem?, ← hsame] at hrecorded
  cases hrecorded

/-- The end of the section: the rows behind it are lost. -/
theorem not_keepsApart_of_stars {name : Text} (hnewline : '\n' ∉ name)
    (hmark : contains (stem name) sectionMark = false)
    (hstars : startsWith (stem name) (str "****") = true) : ¬ KeepsApart name := by
  refine not_keepsApart_of_lost ?_
  have hrow := scanLine_row false smallSlot_header smallSlot_cells name _
    (PlainHeader.fields_ne smallSlot.header) {}
  dsimp only at hrow
  rw [show name.dropWhile isTrimmed = stem name from rfl, hmark, if_neg Bool.false_ne_true,
    if_pos hstars] at hrow
  rw [parseAmpData_fill false smallSlot_plain hnewline]
  show (scanLines false ((name ++ spaced smallSlot.cells) :: _) _).coreMix = _
  rw [scanLines_none hrow]

theorem length_expandField (field : Text) :
    1 ≤ (expandField field).length ∧ ((expandField field).length = 1 → expandField field = [field]) := by
  unfold expandField
  split_ifs
  · exact ⟨by decide, fun h => by cases h⟩
  · exact ⟨by decide, fun h => by cases h⟩
  · split
    · exact ⟨by simp, fun h => by cases h⟩
    · exact ⟨by simp, fun _ => rfl⟩

theorem length_le_expandAmpHeader (fields : List Text) :
    fields.length ≤ (expandAmpHeader fields).length := by
  induction fields with
  | nil => exact Nat.le_refl 0
  | cons field fields ih =>
    have hone := (length_expandField field).1
    show fields.length + 1 ≤ (expandField field ++ expandAmpHeader fields).length
    rw [List.length_append]
    omega

/-- With such columns no pid is found. -/
theorem rowPid_none {first : Text} (h : 'N' ∈ first) (values : List Text) :
    rowPid (rowOf [first, str "1", str "5"] values) = none := by
  have hkey : ∀ key : Text, 'N' ∉ key → key ≠ str "1" → key ≠ str "5" →
      (rowOf [first, str "1", str "5"] values)[key]? = none := by
    intro key hkey hone hfive
    refine rowOf_eq_none fun hmem => ?_
    simp only [List.map_cons, List.map_nil, List.mem_cons, List.not_mem_nil, or_false] at hmem
    rcases hmem with rfl | rfl | rfl
    · exact hkey (mem_trimCopy h (by decide))
    · exact hone (by decide)
    · exact hfive (by decide)
  unfold rowPid
  rw [hkey (str "ID") (by decide) (by decide) (by decide),
    hkey (str "PID") (by decide) (by decide) (by decide)]
  rfl

theorem parseRow_renamed {fields : List Text} (h : ∃ field ∈ fields, 'N' ∈ field) :
    parseRow false (expandAmpHeader fields ++ [str "1", str "5"])
      (trimCopy (str "b" ++ spaced [(2, str "2"), (2, str "5")])) {} = {} := by
  obtain ⟨field, hfield, hin⟩ := h
  have hsplit : ∀ expectedSize, splitMergedNumericFields (splitMultiSpace
      (trimCopy (str "b" ++ spaced [(2, str "2"), (2, str "5")]))) expectedSize =
        [str "b", str "2", str "5"] := by
    intro expectedSize
    have hfields : (splitMultiSpace (trimCopy (str "b" ++ spaced [(2, str "2"), (2, str "5")]))).map
        trimCopy = [str "b", str "2", str "5"] := by decide
    unfold splitMergedNumericFields
    rw [hfields]
    exact splitRounds_none (by decide) _ _
  unfold parseRow
  dsimp only
  rw [hsplit]
  by_cases hlength : [str "b", str "2", str "5"].length =
      (expandAmpHeader fields ++ [str "1", str "5"]).length
  · rw [if_neg (not_not.mpr hlength)]
    -- three columns: the name is the first of them, whole
    have hone : (expandAmpHeader fields).length = 1 := by
      rw [List.length_append] at hlength
      have hthree : 3 = (expandAmpHeader fields).length + 2 := hlength
      omega
    have hfields := length_le_expandAmpHeader fields
    obtain ⟨first, rest, rfl⟩ := List.exists_cons_of_ne_nil (List.ne_nil_of_mem hfield)
    obtain rfl : rest = [] := List.length_eq_zero_iff.mp
      (by rw [List.length_cons] at hfields; omega)
    have hfirst : expandAmpHeader [first] = expandField first := List.append_nil _
    rw [hfirst] at hone ⊢
    rw [(length_expandField first).2 hone]
    rw [List.mem_singleton.mp hfield] at hin
    rw [List.singleton_append, rowPid_none hin]
  · rw [if_pos hlength]

theorem smallSlot_columns {name : Text} (hne : stem name ≠ []) :
    expandAmpHeader (splitMultiSpace (trimCopy (name ++ spaced smallSlot.cells))) =
      expandAmpHeader (splitMultiSpace (stem name)) ++ [str "1", str "5"] := by
  have hcell : IsField (str "1") := by decide
  have hcells : ∀ cell ∈ [(2, str "5")], 1 ≤ cell.1 ∧ IsField cell.2 := by decide
  have hsplit : splitMultiSpace (trimCopy (name ++ spaced smallSlot.cells)) =
      splitMultiSpace (stem name) ++ [str "1", str "5"] := by
    rw [trimCopy_row (by decide) smallSlot_cells.field hne]
    refine (splitMultiSpace_spaced (stem name) (Nat.le_refl 2) hcell hcells).trans (congrArg _ ?_)
    decide
  rw [hsplit]
  unfold expandAmpHeader
  rw [List.flatMap_append]
  exact congrArg _ (by decide)

/-- A line of columns: no row behind it has its pid under `ID` any more. -/
theorem not_keepsApart_of_header {name : Text} (hnewline : '\n' ∉ name)
    (hstars : startsWith (stem name) (str "****") = false) (hheader : isHeaderName name = true) :
    ¬ KeepsApart name := by
  refine not_keepsApart_of_lost ?_
  unfold isHeaderName at hheader
  rw [Bool.and_eq_true, Bool.and_eq_true, Bool.not_eq_true'] at hheader
  obtain ⟨⟨hmark, hname⟩, hcpu⟩ := hheader
  have hne : stem name ≠ [] := by
    intro hempty
    rw [hempty] at hname
    exact absurd hname (by decide)
  have hin : ∃ field ∈ splitMultiSpace (stem name), 'N' ∈ field := by
    refine mem_splitMultiSpace ?_ (by decide)
    exact (List.isPrefixOf_iff_prefix.mp hname).mem (by decide)
  have hrow := scanLine_row false smallSlot_header smallSlot_cells name _
    (PlainHeader.fields_ne smallSlot.header) {}
  dsimp only at hrow
  rw [show name.dropWhile isTrimmed = stem name from rfl, hmark, if_neg Bool.false_ne_true, hstars,
    if_neg Bool.false_ne_true, hname, hcpu, Bool.and_self, if_pos rfl, smallSlot_columns hne] at hrow
  have hvictim := scanLine_row false smallSlot_header smallSlot_victim (str "b")
    (expandAmpHeader (splitMultiSpace (stem name)) ++ [str "1", str "5"]) (by simp) {}
  dsimp only at hvictim
  rw [if_neg (by decide), if_neg (by decide), if_neg (by decide),
    parseRow_renamed hin] at hvictim
  rw [parseAmpData_fill false smallSlot_plain hnewline]
  show (scanLines false ((name ++ spaced smallSlot.cells) ::
    (str "b" ++ spaced [(2, str "2"), (2, str "5")]) :: []) _).coreMix = _
  rw [scanLines_some hrow, scanLines_some hvictim]
  rfl

/-! ## Names of several fields -/

def filler (i : ℕ) : Text := List.replicate (i + 1) 'x'

/-- The pid stands under as many columns as the name has fields, and `extra` is two less. -/
def wideHeader (extra : ℕ) : TableLine where
  first := str "Name"
  cells := (2, str "CPU ms/s") :: ((List.range extra).map (fun i => (2, filler i)) ++
    [(2, str "ID"), (2, str "%PCPU")])

def wideCells (extra gap : ℕ) (first pid share : Text) : List (ℕ × Text) :=
  (2, first) :: (List.replicate extra (gap, str "0") ++ [(gap, pid), (2, share)])

def wideVictim (extra : ℕ) : TableLine :=
  ⟨str "b", wideCells extra 2 (str "0") (str "2") (str "5")⟩

/-- The row of process 2 comes first; the numbers of the open row run together as far as its pid. -/
def wideSlot (extra : ℕ) : NameSlot where
  header := wideHeader extra
  earlier := [wideVictim extra]
  cells := wideCells extra 1 (str "2") (str "1") (str "7")

def leadColumns (extra : ℕ) : List Text :=
  str "Name" :: str "CPU ms/s" :: (List.range extra).map filler

theorem wideHeader_fields (extra : ℕ) :
    (wideHeader extra).fields = leadColumns extra ++ [str "ID", str "%PCPU"] := by
  simp [wideHeader, TableLine.fields, TableLine.values, leadColumns, Function.comp_def]

theorem wideCells_values (extra gap : ℕ) (name first pid share : Text) :
    (⟨name, wideCells extra gap first pid share⟩ : TableLine).values =
      first :: List.replicate extra (str "0") ++ [pid, share] := by
  simp [wideCells, TableLine.values]

theorem leadColumns_length (extra : ℕ) : (leadColumns extra).length = extra + 2 := by
  simp [leadColumns]

theorem mem_filler {i : ℕ} {c : Char} (h : c ∈ filler i) : c = 'x' := List.eq_of_mem_replicate h

theorem filler_ne (i : ℕ) {text : Text} (h : text.any (· != 'x') = true) : filler i ≠ text := by
  rintro rfl
  obtain ⟨c, hc, hne⟩ := List.any_eq_true.mp h
  rw [mem_filler hc] at hne
  cases hne

theorem leadColumns_ne (extra : ℕ) {text : Text}
    (hother : text ≠ str "Name" ∧ text ≠ str "CPU ms/s" ∧ text.any (· != 'x') = true) :
    text ∉ leadColumns extra := by
  obtain ⟨hname, hcpu, h⟩ := hother
  intro hmem
  rcases List.mem_cons.mp hmem with heq | hmem
  · exact hname heq
  rcases List.mem_cons.mp hmem with heq | hmem
  · exact hcpu heq
  · obtain ⟨i, _, hi⟩ := List.mem_map.mp hmem
    exact filler_ne i h hi

theorem leadColumns_nodup (extra : ℕ) : (leadColumns extra).Nodup := by
  have hinjective : Function.Injective filler := fun i j hij => by
    have hlength := congrArg List.length hij
    simpa [filler] using hlength
  refine List.nodup_cons.mpr ⟨fun hmem => ?_, List.nodup_cons.mpr ⟨fun hmem => ?_,
    List.nodup_range.map hinjective⟩⟩
  · rcases List.mem_cons.mp hmem with heq | hmem
    · exact absurd heq (by decide)
    · obtain ⟨i, _, hi⟩ := List.mem_map.mp hmem
      exact filler_ne i (by decide) hi
  · obtain ⟨i, _, hi⟩ := List.mem_map.mp hmem
    exact filler_ne i (by decide) hi

theorem filler_contains (i : ℕ) {needle : Text} (h : needle.any (· != 'x') = true) :
    contains (filler i) needle = false := by
  refine decide_eq_false fun hfound => ?_
  obtain ⟨c, hc, hne⟩ := List.any_eq_true.mp h
  rw [mem_filler (hfound.mem hc)] at hne
  cases hne

theorem filler_startsWith (i : ℕ) {needle : Text} (h : needle.any (· != 'x') = true) :
    startsWith (filler i) needle = false := by
  refine Bool.eq_false_of_not_eq_true fun hstart => ?_
  exact of_decide_eq_false (filler_contains i h) (List.isPrefixOf_iff_prefix.mp hstart).isInfix

theorem filler_plain (i : ℕ) : PlainColumn (filler i) := by
  have hword : IsWord (filler i) := by
    refine ⟨List.cons_ne_nil _ _, fun c hc => ?_⟩
    rw [mem_filler hc]
    rfl
  exact ⟨hword.isField, hword.newline, filler_contains i (by decide),
    filler_startsWith i (by decide), filler_startsWith i (by decide)⟩

theorem wideHeader_plain (extra : ℕ) : PlainHeader (wideHeader extra) where
  columns column hcolumn := by
    rw [wideHeader_fields] at hcolumn
    simp only [leadColumns, List.cons_append, List.mem_cons, List.mem_append, List.mem_map,
      List.not_mem_nil, or_false] at hcolumn
    rcases hcolumn with rfl | rfl | ⟨i, _, rfl⟩ | rfl | rfl
    · decide
    · decide
    · exact filler_plain i
    · decide
    · decide
  gaps cell hcell := by
    simp only [wideHeader, List.mem_cons, List.mem_append, List.mem_map, List.not_mem_nil,
      or_false] at hcell
    rcases hcell with rfl | ⟨i, _, rfl⟩ | rfl | rfl <;> exact Nat.le_refl 2
  nodup := by
    rw [wideHeader_fields]
    refine (leadColumns_nodup extra).append (by decide) fun column hlead hpid => ?_
    rcases List.mem_cons.mp hpid with rfl | hshare
    · exact leadColumns_ne extra (by decide) hlead
    · rw [List.mem_singleton.mp hshare] at hlead
      exact leadColumns_ne extra (by decide) hlead
  name := show startsWith (str "Name") (str "Name") = true by decide
  cpu := by
    rw [wideHeader_fields]
    exact List.mem_append_left _ (List.mem_cons_of_mem _ List.mem_cons_self)
  pid := by
    rw [wideHeader_fields]
    refine .inl ⟨by simp, ?_⟩
    rw [List.mem_append, not_or]
    exact ⟨leadColumns_ne extra (by decide),
      by decide⟩

theorem pidUnder_wide (extra gap : ℕ) (name first pid share : Text) :
    pidUnder (wideHeader extra) ⟨name, wideCells extra gap first pid share⟩ = strtol pid := by
  have hheader : (wideHeader extra).values =
      (str "CPU ms/s" :: (List.range extra).map filler) ++ [str "ID", str "%PCPU"] :=
    (List.cons.inj (wideHeader_fields extra)).2
  have hlead : ((str "CPU ms/s" :: (List.range extra).map filler).zip
      (first :: List.replicate extra (str "0"))).find? (fun cell => isPidColumn cell.1) = none := by
    refine List.find?_eq_none.mpr fun cell hcell hpid => ?_
    have hmem : cell.1 ∈ leadColumns extra :=
      List.mem_cons_of_mem _ (List.of_mem_zip hcell).1
    rcases Bool.or_eq_true_iff.mp hpid with hid | hid
    · rw [of_decide_eq_true hid] at hmem
      exact leadColumns_ne extra (by decide) hmem
    · rw [of_decide_eq_true hid] at hmem
      exact leadColumns_ne extra (by decide) hmem
  have hid : isPidColumn (str "ID") = true := by decide
  unfold pidUnder
  rw [hheader, wideCells_values, List.zip_append (by simp), List.find?_append, hlead,
    List.zip_cons_cons, List.find?_cons_of_pos (by exact hid)]
  rfl

theorem wideCells_plain (extra : ℕ) {gap : ℕ} (hgap : 1 ≤ gap) (name : Text)
    {first pid share : Text} (hfirst : IsNumeral first) (hpid : IsNumeral pid)
    (hshare : IsNumeral share) (hrange : 0 < strtol pid ∧ strtol pid < 2 ^ 31) :
    PlainCells (wideHeader extra) ⟨name, wideCells extra gap first pid share⟩ where
  length := by simp [wideHeader, wideCells]
  numerals cell hcell := by
    have hzero : IsNumeral (str "0") := by decide
    simp only [wideCells, List.mem_cons, List.mem_append, List.mem_replicate, List.not_mem_nil,
      or_false] at hcell
    rcases hcell with rfl | ⟨_, rfl⟩ | rfl | rfl
    · exact hfirst
    · exact hzero
    · exact hpid
    · exact hshare
  wide cell hcell := by
    obtain rfl := Option.some.inj hcell
    exact Nat.le_refl 2
  gaps cell hcell := by
    simp only [wideCells, List.mem_cons, List.mem_append, List.mem_replicate, List.not_mem_nil,
      or_false] at hcell
    rcases hcell with rfl | ⟨_, rfl⟩ | rfl | rfl
    · exact Nat.le_succ 1
    · exact hgap
    · exact hgap
    · exact Nat.le_succ 1
  pid := by
    rw [pidUnder_wide]
    exact hrange

theorem wideSlot_plain (extra : ℕ) : PlainSlot (wideSlot extra) where
  frame := plainFrame_nil
  header := wideHeader_plain extra
  marks column hcolumn := by
    have hcolumns : column ∈ (wideHeader extra).fields := hcolumn
    rw [wideHeader_fields] at hcolumns
    simp only [leadColumns, List.cons_append, List.mem_cons, List.mem_append, List.mem_map,
      List.not_mem_nil, or_false] at hcolumns
    rcases hcolumns with rfl | rfl | ⟨i, _, rfl⟩ | rfl | rfl
    · decide
    · decide
    · exact filler_contains i (by decide)
    · decide
    · decide
  cells := wideCells_plain extra (Nat.le_refl 1) [] (by decide) (by decide)
    (by decide) (by decide)
  others row hrow := by
    rw [show row = _ from List.mem_singleton.mp hrow]
    exact ⟨wideCells_plain extra (Nat.le_succ 1) _ (by decide) (by decide)
      (by decide) (by decide), show '\n' ∉ str "b" by decide⟩
  earlier row hrow := by
    rw [List.mem_singleton.mp hrow]
    exact show isHeaderName (str "b") = false by decide

theorem primaryPercent_share {row : TreeMap Text Text} {share : Text}
    (hsuper : row[str "%SCPU"]? = none) (hsuperMs : row[str "SCPU ms/s"]? = none)
    (h : row[str "%PCPU"]? = some share) : primaryPercent row = (atof share, false) := by
  unfold primaryPercent
  rw [hsuper, hsuperMs, h]

/-- A row of such a table, whatever stands before the pid. -/
theorem wide_lookup {extra : ℕ} {lead : List Text} (hlead : lead.length = extra + 2)
    {pid share : Text} (hpid : IsField pid) (hshare : IsField share) :
    rowPid (rowOf (wideHeader extra).fields (lead ++ [pid, share])) = some (atoi pid) ∧
      primaryPercent (rowOf (wideHeader extra).fields (lead ++ [pid, share])) =
        (atof share, false) := by
  have hheader := wideHeader_plain extra
  have htrim := hheader.map_trimCopy
  have hlength : (lead ++ [pid, share]).length = (wideHeader extra).fields.length := by
    rw [wideHeader_fields, List.length_append, List.length_append, hlead, leadColumns_length]
    rfl
  have hzip : (wideHeader extra).fields.zip (lead ++ [pid, share]) =
      (leadColumns extra).zip lead ++ [(str "ID", pid), (str "%PCPU", share)] := by
    rw [wideHeader_fields, List.zip_append ((leadColumns_length extra).trans hlead.symm)]
    rfl
  have hsome : ∀ column value, (column, value) ∈ [(str "ID", pid), (str "%PCPU", share)] →
      trimCopy column = column → trimCopy value = value →
      (rowOf (wideHeader extra).fields (lead ++ [pid, share]))[column]? = some value := by
    intro column value hmem hcolumn hvalue
    have hlookup := rowOf_eq_some hheader.nodup_trimmed hlength
      (hzip ▸ List.mem_append_right _ hmem)
    rwa [hcolumn, hvalue] at hlookup
  have hnone : ∀ column, column ∉ leadColumns extra → column ∉ [str "ID", str "%PCPU"] →
      (rowOf (wideHeader extra).fields (lead ++ [pid, share]))[column]? = none := by
    intro column hlead hne
    refine rowOf_eq_none ?_
    rw [htrim, wideHeader_fields, List.mem_append, not_or]
    exact ⟨hlead, hne⟩
  constructor
  · unfold rowPid
    rw [hsome (str "ID") pid (by simp) (by decide) hpid.trimCopy_eq]
    rfl
  · exact primaryPercent_share
      (hnone _ (leadColumns_ne extra (by decide)) (by decide))
      (hnone _ (leadColumns_ne extra (by decide)) (by decide))
      (hsome (str "%PCPU") share (by simp) (by decide) hshare.trimCopy_eq)

theorem recordRow_entry (hasSuper : Bool) (row : TreeMap Text Text) (pid : ℤ) (amp : AmpData) :
    (recordRow hasSuper row pid amp).coreMix[pid]? = some (coreMixText hasSuper row) :=
  TreeMap.getElem?_insert_self

/-- What is known when the open row is reached. -/
def wideStart (extra : ℕ) : AmpData :=
  recordRow false (rowOf (wideHeader extra).fields (wideVictim extra).fields) 2 {}

theorem wideStart_entry (extra : ℕ) :
    (wideStart extra).coreMix[(2 : ℤ)]? = some (str "P:5% E:95%") := by
  have hlead : (str "b" :: str "0" :: List.replicate extra (str "0")).length = extra + 2 := by simp
  have hpid : IsField (str "2") := by decide
  have hshare : IsField (str "5") := by decide
  have hfields : (wideVictim extra).fields =
      (str "b" :: str "0" :: List.replicate extra (str "0")) ++ [str "2", str "5"] :=
    congrArg (str "b" :: ·) (wideCells_values extra 2 (str "b") (str "0") (str "2") (str "5"))
  have hpercent := (wide_lookup hlead hpid hshare).2
  unfold wideStart
  rw [recordRow_entry, hfields]
  unfold coreMixText
  rw [hpercent]
  decide +kernel

theorem wideSlot_start (extra : ℕ) {name : Text} (hnewline : '\n' ∉ name) :
    parseAmpData ((wideSlot extra).fill name).text false =
      scanLines false [name ++ spaced (wideSlot extra).cells]
        ⟨true, (wideHeader extra).fields, wideStart extra⟩ := by
  have hword : IsWord (str "b") := by decide
  have hname : PlainName (str "b") := PlainName.of_word hword (by decide)
  have hcells := ((wideSlot_plain extra).others (wideVictim extra) List.mem_cons_self).1
  have hrow := scanLine_plain false (wideHeader_plain extra) hname hcells {}
  have hpid : pidUnder (wideHeader extra) (wideVictim extra) = 2 :=
    (pidUnder_wide extra 2 (str "b") (str "0") (str "2") (str "5")).trans (by decide)
  rw [hpid] at hrow
  rw [parseAmpData_fill false (wideSlot_plain extra) hnewline]
  show scanLines false ((wideVictim extra).text :: [name ++ spaced (wideSlot extra).cells])
    ⟨true, (wideHeader extra).fields, {}⟩ = _
  rw [scanLines_some hrow]
  rfl

theorem groupCells_replicate (group : List Text) (n : ℕ) (word : Text) (rest : List (ℕ × Text)) :
    groupCells group (List.replicate n (1, word) ++ rest) =
      groupCells (group ++ List.replicate n word) rest := by
  induction n generalizing group with
  | zero => rw [List.replicate_zero, List.replicate_zero, List.append_nil, List.nil_append]
  | succ n ih =>
    rw [List.replicate_succ, List.cons_append, groupCells, if_pos rfl, ih, List.append_assoc]
    rfl

/-- The numbers of the open row that run together. -/
def wideNumbers (extra : ℕ) : List Text :=
  str "2" :: (List.replicate extra (str "0") ++ [str "1"])

theorem wideNumbers_numeral (extra : ℕ) : ∀ part ∈ wideNumbers extra, IsNumeral part := by
  intro part hpart
  have htwo : IsNumeral (str "2") := by decide
  have hzero : IsNumeral (str "0") := by decide
  have hone : IsNumeral (str "1") := by decide
  simp only [wideNumbers, List.mem_cons, List.mem_append, List.mem_replicate, List.not_mem_nil,
    or_false] at hpart
  rcases hpart with rfl | ⟨_, rfl⟩ | rfl
  · exact htwo
  · exact hzero
  · exact hone

theorem wideNumbers_field (extra : ℕ) : IsField (joinWords (wideNumbers extra)) :=
  IsField.joinWords (List.cons_ne_nil _ _) fun part hpart =>
    (wideNumbers_numeral extra part hpart).isWord.isField

theorem atoi_wideNumbers (extra : ℕ) : atoi (joinWords (wideNumbers extra)) = 2 := by
  unfold wideNumbers
  rw [joinWords_cons _ (by simp), str_eq]
  exact atoi_natText 2 (by simp) (by decide)

theorem splitMultiSpace_wide (extra : ℕ) (start : Text) :
    splitMultiSpace (start ++ spaced (wideSlot extra).cells) =
      splitMultiSpace start ++ [joinWords (wideNumbers extra), str "7"] := by
  have hplain := (wideSlot_plain extra).cells
  have hgroups : groupCells [str "2"] (List.replicate extra (1, str "0") ++
      [(1, str "1"), (2, str "7")]) = [wideNumbers extra, [str "7"]] := by
    rw [groupCells_replicate]
    rfl
  have hsplit := splitMultiSpace_spaced start (Nat.le_refl 2)
    (hplain.field _ List.mem_cons_self) fun cell hcell =>
      ⟨hplain.gaps cell (List.mem_cons_of_mem _ hcell),
        hplain.field cell (List.mem_cons_of_mem _ hcell)⟩
  rw [hgroups, List.map_cons, List.map_cons, joinWords_singleton] at hsplit
  exact hsplit

/-- The fields of the name fill the columns before the pid, and the numbers that run together are not
told apart any more. -/
theorem scanLine_wide {extra : ℕ} {name : Text}
    (hextra : (allParts (splitMultiSpace (stem name))).length = extra + 2)
    (hmark : contains (stem name) sectionMark = false)
    (hstars : startsWith (stem name) (str "****") = false) (hheader : isHeaderName name = false) :
    scanLine false ⟨true, (wideHeader extra).fields, wideStart extra⟩
        (name ++ spaced (wideSlot extra).cells) =
      some ⟨true, (wideHeader extra).fields, recordRow false (rowOf (wideHeader extra).fields
        (allParts (splitMultiSpace (stem name)) ++ [joinWords (wideNumbers extra), str "7"])) 2
          (wideStart extra)⟩ := by
  have hplain := wideSlot_plain extra
  have hne : stem name ≠ [] := by
    intro hempty
    rw [hempty] at hextra
    exact absurd hextra (Nat.succ_ne_zero _).symm
  have htrimmed := trimCopy_row (hplain.cells.ne hplain.header) hplain.cells.field hne
  have hlength : (wideHeader extra).fields.length =
      (allParts (splitMultiSpace (stem name))).length +
        [joinWords (wideNumbers extra), str "7"].length := by
    rw [wideHeader_fields, List.length_append, leadColumns_length, hextra]
    rfl
  have hfields := splitMergedNumericFields_total (splitMultiSpace_wide extra (stem name))
  rw [← hlength] at hfields
  have hseven : IsField (str "7") := by decide
  have hpid := (wide_lookup hextra (wideNumbers_field extra) hseven).1
  rw [atoi_wideNumbers] at hpid
  have hrow := scanLine_row false hplain.header hplain.cells name _
    (PlainHeader.fields_ne (wideHeader extra)) (wideStart extra)
  dsimp only at hrow
  rw [show name.dropWhile isTrimmed = stem name from rfl, hmark, if_neg Bool.false_ne_true, hstars,
    if_neg Bool.false_ne_true, isHeaderName_false hmark hheader, if_neg Bool.false_ne_true] at hrow
  refine hrow.trans (congrArg (fun amp => some (TaskScan.mk true _ amp)) ?_)
  unfold parseRow
  dsimp only at htrimmed ⊢
  rw [htrimmed, show name.dropWhile isTrimmed = stem name from rfl, hfields,
    if_neg (not_not.mpr (by rw [List.length_append, ← hlength])), hpid]
  rfl

theorem wideSlot_own (extra : ℕ) : (wideSlot extra).own = 1 :=
  (pidUnder_wide extra 1 [] (str "2") (str "1") (str "7")).trans (by decide)

/-- A safe name leaves the entry of process 2 as it was. -/
theorem wideSlot_kept (extra : ℕ) {name : Text} (hnewline : '\n' ∉ name) (hsafe : SafeName name) :
    (parseAmpData ((wideSlot extra).fill name).text false).coreMix[(2 : ℤ)]? =
      some (str "P:5% E:95%") := by
  have hplain := wideSlot_plain extra
  have hpid : (2 : ℤ) ≠ (wideSlot extra).own := by
    rw [wideSlot_own]
    decide
  obtain ⟨amp, hagree, hline⟩ := scanLine_safe false hplain.header hplain.cells hsafe
    (wideStart extra)
  have hentry := (hagree 2 hpid).coreMix
  rw [wideStart_entry] at hentry
  rw [wideSlot_start extra hnewline]
  exact (congrArg (fun amp : AmpData => amp.coreMix[(2 : ℤ)]?) (scanLines_some hline [])).trans
    hentry.symm

/-- A name that fills the columns before the pid replaces it. -/
theorem wideSlot_replaced {extra : ℕ} {name : Text} (hnewline : '\n' ∉ name)
    (hextra : (allParts (splitMultiSpace (stem name))).length = extra + 2)
    (hmark : contains (stem name) sectionMark = false)
    (hstars : startsWith (stem name) (str "****") = false) (hheader : isHeaderName name = false) :
    (parseAmpData ((wideSlot extra).fill name).text false).coreMix[(2 : ℤ)]? =
      some (str "P:7% E:93%") := by
  have hseven : IsField (str "7") := by decide
  have hpercent := (wide_lookup hextra (wideNumbers_field extra) hseven).2
  rw [wideSlot_start extra hnewline, scanLines_some (scanLine_wide hextra hmark hstars hheader)]
  refine (recordRow_entry false _ 2 _).trans (congrArg some ?_)
  unfold coreMixText
  rw [hpercent]
  decide +kernel

/-- A name of several fields: the row is recorded under the number that the table puts in the place of
its pid. -/
theorem not_keepsApart_of_fields {name : Text} (hnewline : '\n' ∉ name)
    (hmark : contains (stem name) sectionMark = false)
    (hstars : startsWith (stem name) (str "****") = false) (hheader : isHeaderName name = false)
    (h : ¬ OneField (stem name)) : ¬ KeepsApart name := by
  rw [oneField_iff, Nat.not_le] at h
  obtain ⟨extra, hextra⟩ := Nat.exists_eq_add_of_le' (Nat.succ_le_of_lt h)
  have hother : '\n' ∉ str "a" := by decide
  have hsafe : SafeName (str "a") := by decide
  have hpid : (2 : ℤ) ≠ (wideSlot extra).own := by
    rw [wideSlot_own]
    decide
  intro hkeeps
  have hsame := (hkeeps false (wideSlot extra) (str "a") (wideSlot_plain extra) (by decide) hother
    hsafe 2 hpid).coreMix
  rw [wideSlot_replaced hnewline hextra hmark hstars hheader, wideSlot_kept extra hother hsafe]
    at hsame
  exact absurd (Option.some.inj hsame) (by decide)

/-! ## Exactly the safe names -/

/-- A name keeps its process apart from the others in every table if and only if it is safe. -/
theorem keepsApart_iff_safeName (name : Text) (hnewline : '\n' ∉ name) :
    KeepsApart name ↔ SafeName name := by
  refine ⟨fun hkeeps => ?_, keepsApart_of_safe hnewline⟩
  by_contra hunsafe
  unfold SafeName at hunsafe
  rw [not_or, Bool.not_eq_true] at hunsafe
  obtain ⟨hmark, hunsafe⟩ := hunsafe
  by_cases hstars : startsWith (stem name) (str "****") = true
  · exact not_keepsApart_of_stars hnewline hmark hstars hkeeps
  have hstars := Bool.eq_false_of_not_eq_true hstars
  by_cases hheader : isHeaderName name = true
  · exact not_keepsApart_of_header hnewline hstars hheader hkeeps
  have hheader := Bool.eq_false_of_not_eq_true hheader
  exact not_keepsApart_of_fields hnewline hmark hstars hheader
    (fun hfield => hunsafe ⟨hstars, hheader, hfield⟩) hkeeps

theorem keepsApart_kernel_task : KeepsApart (str "kernel_task") :=
  (keepsApart_iff_safeName (str "kernel_task") (by decide)).mpr (by decide)

/-- A process named like the end of the section costs the process behind it all its entries. -/
theorem stars_disturb_others :
    PlainSlot smallSlot ∧ (2 : ℤ) ≠ smallSlot.own ∧
      ¬ SameEntries (parseAmpData (smallSlot.fill (str "****")).text false)
        (parseAmpData (smallSlot.fill (str "a")).text false) 2 := by
  refine ⟨smallSlot_plain, by decide, fun hsame => ?_⟩
  have hlost : 2 ∉ (parseAmpData (smallSlot.fill (str "****")).text false).coreMix := by decide
  rw [TreeMap.mem_iff_isSome_getElem?, hsame.coreMix] at hlost
  exact hlost (TreeMap.mem_iff_isSome_getElem?.mp smallSlot_recorded)

end Mtop
