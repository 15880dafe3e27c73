import Mtop.Ui.RowOrder
import Mtop.Ui.SearchTour

/-! Clicking the titles of the process table: the title that is drawn under the pointer decides the
order of the rows from the next frame on, and a second click turns the order around. -/
namespace Mtop
open Cxx
set_option autoImplicit false

/-! ## Titles -/

def elideRight (text : Text) (width : ℤ) : Text :=
  if width ≤ 0 then []
  else if text.length ≤ width then text
  else if width ≤ 3 then text.take width.toNat
  else text.take (width - 3).toNat ++ str "..."

def centeredText (text : Text) (width : ℤ) : Text :=
  let clipped := elideRight text width
  if width ≤ clipped.length then clipped
  else
    let left := Int.tdiv (width - clipped.length) 2
    let right := width - clipped.length - left
    List.replicate left.toNat ' ' ++ clipped ++ List.replicate right.toNat ' '

/-- A title on the screen; its arrow points up for an ascending order. -/
structure DrawnTitle where
  x : ℤ
  text : Text
  column : ProcessColumn
  marked : Bool
  arrow : Option Bool

def drawTitle (maxX : ℤ) (state : UiState) (column : ProcessColumn) (index : ℕ) : DrawnTitle :=
  let x := processColumnOffset index
  let marked := column.sortable && state.sort = column.sortMode
  let arrowX := x + column.width - 1
  { x, column, marked
    text := centeredText column.title column.width
    arrow :=
      if marked && x ≤ arrowX && arrowX < maxX - 1 then some (state.sortDirection > 0) else none }

/-- The titles that `draw_processes` writes on line 1 of its window. -/
def drawTitles (maxX : ℤ) (state : UiState) : List DrawnTitle :=
  processColumns.zipIdx.map fun (column, index) => drawTitle maxX state column index

/-- The cells of the text. -/
def DrawnTitle.Covers (title : DrawnTitle) (x : ℤ) : Prop :=
  title.x ≤ x ∧ x < title.x + title.text.length

section Titles
variable {maxX : ℤ} {state : UiState}

theorem title_width : ∀ entry ∈ processColumns.zipIdx,
    ((centeredText entry.1.title entry.1.width).length : ℤ) = entry.1.width := by
  decide +kernel

theorem titles_apart : ∀ entry ∈ processColumns.zipIdx, ∀ other ∈ processColumns.zipIdx,
    entry.2 = other.2 ∨
      processColumnOffset entry.2 + entry.1.width < processColumnOffset other.2 ∨
        processColumnOffset other.2 + other.1.width < processColumnOffset entry.2 := by
  decide

theorem filter_index : ∀ entry ∈ processColumns.zipIdx,
    (processColumns.zipIdx.filter fun other => other.2 = entry.2) = [entry] := by
  simp only [processColumns, List.zipIdx_cons, List.zipIdx_nil, List.forall_mem_cons]
  exact ⟨rfl, rfl, rfl, rfl, rfl, rfl, rfl, rfl, rfl, fun _ h => absurd h List.not_mem_nil⟩

/-- No two titles share a cell. -/
theorem columnsAt_title {title : DrawnTitle} (htitle : title ∈ drawTitles maxX state) {x : ℤ}
    (hx : title.Covers x) : columnsAt x = [title.column] := by
  obtain ⟨⟨column, index⟩, hmem, rfl⟩ := List.mem_map.mp htitle
  have hwidth := title_width (column, index) hmem
  dsimp only at hwidth
  obtain ⟨hlow, hhigh⟩ : processColumnOffset index ≤ x ∧
      x < processColumnOffset index + (centeredText column.title column.width).length := hx
  rw [hwidth] at hhigh
  have hcells : ∀ entry ∈ processColumns.zipIdx, (processColumnOffset entry.2 ≤ x &&
      x ≤ processColumnOffset entry.2 + entry.1.width - 1) = decide (entry.2 = index) := by
    intro entry hentry
    by_cases hindex : entry.2 = index
    · have hsame : entry = (column, index) := by
        have hin : entry ∈ processColumns.zipIdx.filter fun other => other.2 = index :=
          List.mem_filter.mpr ⟨hentry, decide_eq_true hindex⟩
        rw [filter_index (column, index) hmem] at hin
        exact List.mem_singleton.mp hin
      subst hsame
      have hlast : x ≤ processColumnOffset index + column.width - 1 := by omega
      rw [decide_eq_true hlow, decide_eq_true hlast, decide_eq_true rfl]
      rfl
    · rw [decide_eq_false hindex, Bool.and_eq_false_iff]
      have hapart := titles_apart _ hmem _ hentry
      dsimp only at hapart
      rcases hapart with hsame | hleft | hright
      · exact absurd hsame.symm hindex
      · exact .inl (decide_eq_false (by omega))
      · exact .inr (decide_eq_false (by omega))
  unfold columnsAt
  rw [List.filter_congr hcells, filter_index (column, index) hmem]
  rfl

end Titles

/-! ## Clicks -/

/-- The order of the table. -/
structure SortState where
  mode : SortMode
  direction : ℤ

def applyHeaderSortClick (current : SortState) (clickedMode : SortMode) : SortState :=
  if current.mode = clickedMode then { current with direction := -current.direction }
  else ⟨clickedMode, defaultSortDirection clickedMode⟩

def UiState.order (state : UiState) : SortState := ⟨state.sort, state.sortDirection⟩

/-- What a click on a title leaves, but for the message. -/
def UiState.reordered (state : UiState) (mode : SortMode) : UiState :=
  if state.sort = mode then { state with sortDirection := -state.sortDirection }
  else state.setSortMode mode

theorem reordered_order (state : UiState) (mode : SortMode) :
    (state.reordered mode).order = applyHeaderSortClick state.order mode := by
  unfold UiState.reordered applyHeaderSortClick UiState.order
  dsimp only
  split <;> rfl

theorem clickHeader_title (layout : WindowLayout) {state : UiState} (now : ℕ) {event : MouseEvent}
    {column : ProcessColumn} (hview : state.viewMode = .overview)
    (hline : layout.processY ≤ event.y ∧ event.y ≤ layout.processY + 1)
    (hcolumn : columnsAt event.x = [column]) (hsortable : column.sortable = true) :
    clickHeader layout now state event =
      ((state.reordered column.sortMode).saySort now, true) := by
  have hindex : processColumnFromHeaderX event.x = some column := by
    unfold processColumnFromHeaderX
    rw [hcolumn]
    rfl
  have hsort : processSortFromHeaderX event.x = some column.sortMode := by
    unfold processSortFromHeaderX
    rw [hcolumn, List.find?_singleton, if_pos hsortable]
    rfl
  unfold clickHeader
  rw [if_pos ⟨hview, hline⟩, hindex, Option.filter_some, hsortable, hsort]
  rfl

/-- A click with the first button on one of the two lines above the rows. -/
structure OnTitle (frame : Frame) (title : DrawnTitle) (event : InputEvent) : Prop where
  drawn : title ∈ drawTitles frame.layout.cols frame.shown
  click : ∃ x y, event = { key := keyMouse, mouse := some ⟨x, y, true⟩ } ∧ title.Covers x ∧
    frame.layout.processY ≤ y ∧ y ≤ frame.layout.processY + 1

theorem processInput_title {ui : Ui} {frame : Frame} {title : DrawnTitle} {event : InputEvent}
    (h : OnTitle frame title event) (hview : ui.state.viewMode = .overview)
    (hsortable : title.column.sortable = true) (env : InputEnv) :
    processInput ui frame event env =
      result ui.config ((ui.state.reordered title.column.sortMode).saySort env.now) := by
  obtain ⟨x, y, rfl, hx, hline⟩ := h.click
  have hclick : clickHeader frame.layout env.now ui.state ⟨x, y, true⟩ =
      ((ui.state.reordered title.column.sortMode).saySort env.now, true) :=
    clickHeader_title frame.layout env.now hview hline (columnsAt_title h.drawn hx) hsortable
  have htranslate : translateEvent frame env.now ui.state
      { key := keyMouse, mouse := some ⟨x, y, true⟩ } =
        ((ui.state.reordered title.column.sortMode).saySort env.now, err) := by
    unfold translateEvent
    rw [if_pos rfl]
    show synthesizeMouseEvent frame.layout env.now ui.state frame.rows frame.metrics ⟨x, y, true⟩ = _
    unfold synthesizeMouseEvent
    rw [hclick]
  unfold processInput
  rw [htranslate]
  rfl

/-! ## The other way round -/

/-- Two processes whose values in a column compare as equal. -/
def sameIn (mode : SortMode) (a b : ProcessSnapshot) : Bool :=
  match mode with
  | .pid => a.pid == b.pid
  | .cpu => Double.eq a.cpuPercent b.cpuPercent
  | .mem => Double.eq a.memoryPercent b.memoryPercent
  | .time => a.totalCpuTimeNs == b.totalCpuTimeNs
  | .name => a.command == b.command
  | .gpuActive => a.gpuActive == b.gpuActive
  | .io => Double.eq (ioScore a.io 1) (ioScore b.io 1)
  | .power => Double.eq (powerScore a.power 1) (powerScore b.power 1)

/-- A process without a number in a column that may lack one. -/
def missingIn (mode : SortMode) (process : ProcessSnapshot) : Bool :=
  match mode with
  | .io => !(ioScore process.io 1).isFinite
  | .power => !(powerScore process.power 1).isFinite
  | _ => false

section Turned
variable {direction : ℤ}

theorem compareOr_turned {β : Type} {eq less : β → β → Bool} {T : β → Prop} (h : Decides eq less T)
    (hdirection : Directed direction) {a b : β} (ha : T a) (hb : T b) {otherwise : Bool}
    (hless : compareOr eq less a b direction otherwise = true) :
    compareOr eq less a b (-direction) otherwise = eq a b := by
  unfold compareOr at hless ⊢
  cases heq : eq a b with
  | true =>
    rw [heq, if_pos rfl] at hless
    rw [if_pos rfl, hless]
  | false =>
    rw [heq, if_neg Bool.false_ne_true] at hless
    rw [if_neg Bool.false_ne_true]
    rcases hdirection with rfl | rfl
    · rw [if_pos (by decide)] at hless
      rw [if_neg (by decide)]
      exact h.strictWeak.asymm ha hb hless
    · rw [if_neg (by decide)] at hless
      rw [if_pos (by decide)]
      exact h.strictWeak.asymm hb ha hless

theorem value_turned {β : Type} {eq less : β → β → Bool} {T : β → Prop} (h : Decides eq less T)
    (hdirection : Directed direction) {a b : β} (ha : T a) (hb : T b) {otherwise : Bool}
    (hless : compareOr eq less a b direction otherwise = true) :
    compareOr eq less a b (-direction) otherwise = (eq a b || false) :=
  (compareOr_turned h hdirection ha hb hless).trans (Bool.or_false _).symm

/-- A number in either direction, or missing in either direction. -/
inductive Scored : (ℤ → Double) → Prop
  | number {value : Double} (h : value.isFinite = true) : Scored fun _ => value
  | missing : Scored missingSortScore

theorem finiteScore_scored (value : Double) : Scored (finiteScore value) := by
  unfold finiteScore
  cases h : value.isFinite with
  | true => exact .number h
  | false => exact .missing

theorem ioScore_scored (value : Text) : Scored (ioScore value) := by
  unfold ioScore
  split
  · exact .missing
  · split <;> exact finiteScore_scored _

theorem powerScore_scored (value : Text) : Scored (powerScore value) := by
  unfold powerScore
  split
  · exact .missing
  · exact finiteScore_scored _

/-- Nothing missing comes before a number. -/
theorem not_missing_before {value : Double} (h : value.isFinite = true) (otherwise : Bool) :
    compareOr Double.eq Double.lt (missingSortScore direction) value direction otherwise = false := by
  cases value with
  | finite s x =>
    unfold compareOr missingSortScore
    by_cases hdirection : direction > 0
    · have hnot : ¬ direction ≤ 0 := not_le.mpr hdirection
      simp [Double.eq, Double.lt, hdirection, hnot]
    · have hle : direction ≤ 0 := not_lt.mp hdirection
      simp [Double.eq, Double.lt, hdirection, hle]
  | _ => cases h

theorem missing_equal (direction : ℤ) (otherwise : Bool) :
    compareOr Double.eq Double.lt (missingSortScore direction) (missingSortScore direction) direction
      otherwise = otherwise := by
  unfold compareOr missingSortScore
  simp [Double.eq]

theorem scores_turned (hdirection : Directed direction) {f g : ℤ → Double} (hf : Scored f)
    (hg : Scored g) {otherwise : Bool}
    (hless : compareOr Double.eq Double.lt (f direction) (g direction) direction otherwise = true) :
    compareOr Double.eq Double.lt (f (-direction)) (g (-direction)) (-direction) otherwise =
      (Double.eq (f 1) (g 1) || !(g 1).isFinite) := by
  have hfinite : ∀ {value : Double}, value.isFinite = true → value ≠ .nan := by
    rintro value h rfl
    cases h
  cases hf with
  | number hvalue =>
    cases hg with
    | number hvalue' =>
      rw [hvalue', Bool.not_true, Bool.or_false]
      exact compareOr_turned decides_double hdirection (hfinite hvalue) (hfinite hvalue') hless
    | missing => rw [compareOr_missing hvalue, show (missingSortScore 1).isFinite = false from rfl,
        Bool.not_false, Bool.or_true]
  | missing =>
    cases hg with
    | number hvalue' =>
      rw [not_missing_before hvalue'] at hless
      cases hless
    | missing =>
      rw [missing_equal] at hless
      rw [missing_equal, hless]
      rfl

/-- In the other direction two processes change places, unless they are equal in the column or the
later one is missing there. -/
theorem processSortLess_turned {mode : SortMode} {a b : ProcessSnapshot}
    (hdirection : Directed direction) (ha : a.NumericIn mode) (hb : b.NumericIn mode)
    (hless : processSortLess a b mode direction = true) :
    processSortLess a b mode (-direction) = (sameIn mode a b || missingIn mode b) := by
  cases mode with
  | io => exact scores_turned hdirection (ioScore_scored a.io) (ioScore_scored b.io) hless
  | power => exact scores_turned hdirection (powerScore_scored a.power) (powerScore_scored b.power) hless
  | cpu => exact value_turned decides_double hdirection (ha.1 rfl) (hb.1 rfl) hless
  | mem => exact value_turned decides_double hdirection (ha.2 rfl) (hb.2 rfl) hless
  | pid => exact value_turned decides_linear hdirection trivial trivial hless
  | time => exact value_turned decides_uint64 hdirection trivial trivial hless
  | name => exact value_turned decides_linear hdirection trivial trivial hless
  | gpuActive => exact value_turned decides_gpu hdirection trivial trivial hless

end Turned

/-! ## Frames -/

/-- The processes of the table from top to bottom. -/
def Frame.table (frame : Frame) : List ProcessSnapshot := frame.rows.map (·.process)

/-- The table lists the processes that match the filter in the order of a column, whose title alone is
marked, with an arrow where the column ends before the border of the window. -/
structure ShowsSorted (snapshot : SystemSnapshot) (filter : Text) (frame : Frame)
    (column : ProcessColumn) (direction : ℤ) : Prop where
  marked : ∀ title ∈ drawTitles frame.layout.cols frame.shown,
    title.marked = true ↔ title.column = column
  arrow : ∀ title ∈ drawTitles frame.layout.cols frame.shown, title.column = column →
    title.arrow = if title.x + column.width < frame.layout.cols then some (decide (direction > 0))
      else none
  listed : frame.table.Perm (snapshot.processes.filter fun process =>
    processMatchesQuery process filter)
  ordered : ∀ a ∈ frame.table, ∀ b ∈ frame.table,
    Precedes frame.table a b ↔ processSortLess a b column.sortMode direction = true

theorem column_of_sortMode {column other : ProcessColumn} (hcolumn : column ∈ processColumns)
    (hother : other ∈ processColumns) (hsortable : column.sortable = true)
    (hsortable' : other.sortable = true) (hmode : column.sortMode = other.sortMode) :
    column = other := by
  have hnodup : ((processColumns.filter (·.sortable)).map (·.sortMode)).Nodup := by decide
  exact List.inj_on_of_nodup_map hnodup (List.mem_filter.mpr ⟨hcolumn, hsortable⟩)
    (List.mem_filter.mpr ⟨hother, hsortable'⟩) hmode

theorem title_column {maxX : ℤ} {state : UiState} {title : DrawnTitle}
    (h : title ∈ drawTitles maxX state) : title.column ∈ processColumns := by
  obtain ⟨⟨column, index⟩, hmem, rfl⟩ := List.mem_map.mp h
  exact List.fst_mem_of_mem_zipIdx hmem

theorem drawTitles_marked {maxX : ℤ} {state : UiState} {column : ProcessColumn}
    (hcolumn : column ∈ processColumns) (hsortable : column.sortable = true)
    (hsort : state.sort = column.sortMode) :
    ∀ title ∈ drawTitles maxX state, title.marked = true ↔ title.column = column := by
  intro title htitle
  have hother := title_column htitle
  obtain ⟨⟨other, index⟩, -, rfl⟩ := List.mem_map.mp htitle
  have hmarked : (drawTitle maxX state other index).marked = true ↔
      other.sortable = true ∧ state.sort = other.sortMode := by
    unfold drawTitle
    rw [Bool.and_eq_true, decide_eq_true_eq]
  rw [hmarked, hsort]
  constructor
  · rintro ⟨hsortable', hmode⟩
    exact (column_of_sortMode hcolumn hother hsortable hsortable' hmode).symm
  · rintro rfl
    exact ⟨hsortable, rfl⟩

theorem width_pos : ∀ entry ∈ processColumns.zipIdx, 0 < entry.1.width := by
  decide

theorem drawTitles_arrow {maxX : ℤ} {state : UiState} {column : ProcessColumn}
    (hcolumn : column ∈ processColumns) (hsortable : column.sortable = true)
    (hsort : state.sort = column.sortMode) :
    ∀ title ∈ drawTitles maxX state, title.column = column →
      title.arrow = if title.x + column.width < maxX then some (decide (state.sortDirection > 0))
        else none := by
  intro title htitle hsame
  have hmarked := (drawTitles_marked hcolumn hsortable hsort title htitle).mpr hsame
  obtain ⟨⟨other, index⟩, hmem, rfl⟩ := List.mem_map.mp htitle
  have hwidth := width_pos _ hmem
  obtain rfl : other = column := hsame
  dsimp only at hwidth
  unfold drawTitle at hmarked ⊢
  dsimp only at hmarked ⊢
  rw [hmarked, decide_eq_true (by omega)]
  by_cases hroom : processColumnOffset index + other.width < maxX
  · rw [decide_eq_true (by omega), if_pos hroom]
    rfl
  · rw [decide_eq_false (by omega), if_neg hroom]
    rfl

theorem filteredProcesses_nodup {snapshot : SystemSnapshot} {state : UiState}
    (h : (snapshot.processes.map (·.pid)).Nodup) : (filteredProcesses snapshot state).Nodup :=
  (List.Nodup.of_map _ h).filter _

section Draw
variable {σ : StdSort} {ui : Ui} (hprofile : ui.state.viewProfile = .beta)
  (hview : ui.state.viewMode = .overview) (hflat : ui.state.treeMode = false)
  (snapshot : SystemSnapshot) (rows cols : ℤ) (now : ℕ)
include hprofile hview hflat

theorem drawFrame_table :
    ((drawFrame σ ui snapshot rows cols now).frame.map Frame.table) =
      some (σ.sort (rowLess ui.state) (filteredProcesses snapshot ui.state)) := by
  have hrows : frameRows σ snapshot ui.state =
      (σ.sort (rowLess ui.state) (filteredProcesses snapshot ui.state)).map fun process =>
        { process } := by
    unfold frameRows buildProcessRows
    rw [if_neg fun h => absurd (hview.symm.trans h.2) (by decide), hflat]
    rfl
  show some (Frame.table (buildFrame σ (createWindows rows cols) snapshot _ now ui.state).1) = _
  rw [buildFrame_beta σ _ snapshot _ now hprofile, hrows]
  show some (((σ.sort (rowLess ui.state) (filteredProcesses snapshot ui.state)).map
    fun process => ({ process } : ProcessRow)).map (·.process)) = _
  rw [List.map_map]
  exact congrArg some (List.map_id _)

/-- The next frame is in the order that the state asks for. -/
theorem drawFrame_sorted (hlisted : snapshot.Listed) {column : ProcessColumn}
    (hcolumn : column ∈ processColumns) (hsortable : column.sortable = true)
    (hsort : ui.state.sort = column.sortMode) :
    ∃ shown, (drawFrame σ ui snapshot rows cols now).frame = some shown ∧
      ShowsSorted snapshot ui.state.filter shown column ui.state.sortDirection := by
  have htable := drawFrame_table (σ := σ) hprofile hview hflat snapshot rows cols now
  obtain ⟨shown, hshown, hrows⟩ := Option.map_eq_some_iff.mp htable
  have hstate : shown.shown.unscrolled = ui.state.unscrolled := by
    cases hshown
    exact buildFrame_shown_unscrolled σ _ snapshot _ now ui.state
  have hmode : shown.shown.sort = column.sortMode :=
    (congrArg UiState.sort hstate).trans hsort
  have hdirection : shown.shown.sortDirection = ui.state.sortDirection := by
    have h := congrArg UiState.sortDirection hstate
    exact h
  have hperm := σ.perm (rowLess ui.state) (filteredProcesses snapshot ui.state)
  have hnumeric : ∀ process ∈ filteredProcesses snapshot ui.state, process.NumericIn ui.state.sort :=
    fun process hp => (hlisted.numeric process (filteredProcesses_subset _ hp)).inMode _
  have hweak := rowLess_strictWeakOn hnumeric
  refine ⟨shown, hshown, drawTitles_marked hcolumn hsortable hmode, fun title htitle hsame => ?_,
    ?_, fun a ha b hb => ?_⟩
  · rw [← hdirection]
    exact drawTitles_arrow hcolumn hsortable hmode title htitle hsame
  · rw [hrows]
    exact hperm
  · rw [hrows] at ha hb ⊢
    have ha' := hperm.mem_iff.mp ha
    have hb' := hperm.mem_iff.mp hb
    rw [← hsort]
    by_cases hsame : a = b
    · subst hsame
      have hnodup := hperm.nodup_iff.mpr (filteredProcesses_nodup hlisted.pids)
      have hirrefl : processSortLess a a ui.state.sort ui.state.sortDirection = false :=
        hweak.irrefl ha'
      rw [hirrefl]
      exact ⟨fun h => absurd rfl (h.ne hnodup), fun h => absurd h Bool.false_ne_true⟩
    · have hpid : a.pid ≠ b.pid := fun hpid => hsame
        (eq_of_pid hlisted.pids (filteredProcesses_subset a ha') (filteredProcesses_subset b hb') hpid)
      exact precedes_iff_less (σ.sortedOn _ _ hweak) ha hb (hweak.asymm ha' hb')
        (processSortLess_total _ _ (hnumeric a ha') (hnumeric b hb') hpid)

end Draw

/-! ## Turning the order around -/

theorem ShowsSorted.turned {snapshot again : SystemSnapshot} {filter : Text} {frame shown : Frame}
    {column : ProcessColumn} {direction : ℤ} (hdirection : Directed direction)
    (hlisted : again.Listed) (hsame : snapshot.processes.Perm again.processes)
    (h : ShowsSorted snapshot filter frame column direction)
    (h' : ShowsSorted again filter shown column (-direction)) {a b : ProcessSnapshot}
    (hab : Precedes frame.table a b) :
    if sameIn column.sortMode a b || missingIn column.sortMode b then Precedes shown.table a b
    else Precedes shown.table b a := by
  obtain ⟨ha, hb⟩ := hab.mem
  have htables : frame.table.Perm shown.table :=
    (h.listed.trans (hsame.filter _)).trans h'.listed.symm
  have ha' := htables.mem_iff.mp ha
  have hb' := htables.mem_iff.mp hb
  have hlist : ∀ process ∈ shown.table, process ∈ again.processes := fun process hmem =>
    List.mem_of_mem_filter (h'.listed.mem_iff.mp hmem)
  have hnodup : frame.table.Nodup := by
    refine htables.nodup_iff.mpr (h'.listed.nodup_iff.mpr ?_)
    exact (List.Nodup.of_map _ hlisted.pids).filter _
  have hnumeric : ∀ process ∈ shown.table, process.NumericIn column.sortMode := fun process hmem =>
    (hlisted.numeric process (hlist process hmem)).inMode _
  have hless := (h.ordered a ha b hb).mp hab
  have hturned := processSortLess_turned hdirection (hnumeric a ha') (hnumeric b hb') hless
  cases hstays : sameIn column.sortMode a b || missingIn column.sortMode b with
  | true =>
    rw [hstays] at hturned
    rw [if_pos rfl]
    exact (h'.ordered a ha' b hb').mpr hturned
  | false =>
    rw [hstays] at hturned
    rw [if_neg Bool.false_ne_true]
    have hpid : a.pid ≠ b.pid := fun hpid =>
      hab.ne hnodup (eq_of_pid hlisted.pids (hlist a ha') (hlist b hb') hpid)
    refine (h'.ordered b hb' a ha').mpr ((processSortLess_total _ _ (hnumeric a ha') (hnumeric b hb')
      hpid).resolve_left ?_)
    rw [hturned]
    exact Bool.false_ne_true

/-! ## Runs -/

/-- Turns of the input loop without data. -/
def Idle (moves : List Move) : Prop :=
  ∀ move ∈ moves, ∃ event env, move = .input event env ∧ event.key = err

theorem run_idle {σ : StdSort} {moves : List Move} (h : Idle moves) {ui ui' : Ui}
    (hrun : Machine.run (step σ) moves ui = some ui') : ui'.state = ui.state := by
  induction moves generalizing ui with
  | nil =>
    cases hrun
    rfl
  | cons move moves ih =>
    obtain ⟨mid, hstep, hrest⟩ := Machine.run_cons hrun
    obtain ⟨event, env, rfl, hkey⟩ := h move List.mem_cons_self
    obtain ⟨frame, -, -, rfl⟩ := step_input_iff.mp hstep
    have hsame := ih (fun move hmem => h move (List.mem_cons_of_mem _ hmem)) hrest
    exact hsame.trans (processInput_err hkey frame env)

theorem reordered_views (state : UiState) (mode : SortMode) (now : ℕ) :
    let after := (state.reordered mode).saySort now
    after.order = applyHeaderSortClick state.order mode ∧ after.viewProfile = state.viewProfile ∧
      after.viewMode = state.viewMode ∧ after.treeMode = state.treeMode ∧
        after.filter = state.filter := by
  refine ⟨reordered_order state mode, ?_⟩
  unfold UiState.reordered
  split <;> exact ⟨rfl, rfl, rfl, rfl⟩

theorem applyHeaderSortClick_mode (current : SortState) (mode : SortMode) :
    (applyHeaderSortClick current mode).mode = mode := by
  unfold applyHeaderSortClick
  split
  · assumption
  · rfl

/-- Clicking a title of the process table sorts by the column under the pointer, as the next frame
shows if it lists processes with distinct pids and numeric percentages; where that frame lists the
processes in the same column again, all pairs change places but those that are equal there and those
with a missing value, which stays last. -/
theorem header_click_sorts (σ : StdSort) (file : Option Text) (options : SettingOptions)
    {before : List Move} {ui : Ui}
    (hreach : Machine.run (step σ) before (start (runConfig file options)) = some ui) {frame : Frame}
    (hframe : ui.frame = some frame) (hprofile : ui.state.viewProfile = .beta)
    (hview : ui.state.viewMode = .overview) (hflat : ui.state.treeMode = false) {title : DrawnTitle}
    {event : InputEvent} (hclick : OnTitle frame title event)
    (hsortable : title.column.sortable = true) {env : InputEnv} {idle : List Move}
    (hidle : Idle idle) {snapshot : SystemSnapshot} (hlisted : snapshot.Listed) {rows cols : ℤ}
    {now : ℕ} {next : Ui}
    (hrun : Machine.run (step σ) (.input event env :: (idle ++ [.frame snapshot rows cols now]))
      ui = some next) :
    ∃ shown direction, next.frame = some shown ∧
      applyHeaderSortClick ui.state.order title.column.sortMode =
        ⟨title.column.sortMode, direction⟩ ∧
      next.state.order = ⟨title.column.sortMode, direction⟩ ∧
      ShowsSorted snapshot ui.state.filter shown title.column direction ∧
      ∀ earlier : SystemSnapshot, earlier.processes.Perm snapshot.processes →
        ui.state.sort = title.column.sortMode →
        ShowsSorted earlier ui.state.filter frame title.column ui.state.sortDirection →
          ∀ a b, Precedes frame.table a b →
            if sameIn title.column.sortMode a b || missingIn title.column.sortMode b then
              Precedes shown.table a b
            else Precedes shown.table b a := by
  obtain ⟨clicked, hinput, hrest⟩ := Machine.run_cons hrun
  obtain ⟨frame', hframe', -, rfl⟩ := step_input_iff.mp hinput
  obtain rfl : frame = frame' := Option.some.inj (hframe.symm.trans hframe')
  rw [Machine.run_append] at hrest
  obtain ⟨mid, hmid, hlast⟩ := Option.bind_eq_some_iff.mp hrest
  obtain ⟨final, hdraw, hend⟩ := Machine.run_cons hlast
  obtain ⟨-, rfl⟩ := step_frame_iff.mp hdraw
  cases hend
  -- the state from which the frame is drawn
  have hstate : mid.state = (ui.state.reordered title.column.sortMode).saySort env.now := by
    rw [run_idle hidle hmid, processInput_title hclick hview hsortable env]
    rfl
  obtain ⟨horder, hprofile', hview', hflat', hfilter⟩ :=
    reordered_views ui.state title.column.sortMode env.now
  rw [← hstate] at horder hprofile' hview' hflat' hfilter
  have hmode : mid.state.sort = title.column.sortMode :=
    (congrArg SortState.mode horder).trans (applyHeaderSortClick_mode _ _)
  obtain ⟨shown, hshown, hsorted⟩ := drawFrame_sorted (σ := σ) (hprofile'.trans hprofile)
    (hview'.trans hview) (hflat'.trans hflat) snapshot rows cols now hlisted (title_column hclick.drawn)
    hsortable hmode
  rw [hfilter] at hsorted
  have hafter : (drawFrame σ mid snapshot rows cols now).state.order = mid.state.order := by
    have h := congrArg UiState.order (drawFrame_unframed σ mid snapshot rows cols now)
    exact h
  have hpair : mid.state.order = ⟨title.column.sortMode, mid.state.sortDirection⟩ := by
    rw [← hmode]
    rfl
  refine ⟨shown, mid.state.sortDirection, hshown, horder.symm.trans hpair, hafter.trans hpair, hsorted,
    fun earlier hsame hsort hbefore a b hab => ?_⟩
  have hnegated : mid.state.sortDirection = -ui.state.sortDirection := by
    have hturn := congrArg SortState.direction horder
    unfold applyHeaderSortClick UiState.order at hturn
    dsimp only at hturn
    rwa [if_pos hsort] at hturn
  rw [hnegated] at hsorted
  exact hbefore.turned (reached_modal hreach).direction hlisted hsame hsorted hab

/-- A click on the title of the pids, and nothing else until the next frame. -/
def pidTitleClicked : List Move :=
  .input { key := keyMouse, mouse := some ⟨2, 25, true⟩ } {} ::
    (List.replicate 19 (.input {} {}) ++ [.frame tourSnapshot 40 120 0])

/-- The second click puts the largest pid first. -/
theorem header_click_sorts_twice :
    ∃ next shown, Machine.run (step .insertion)
        (.frame tourSnapshot 40 120 0 :: (pidTitleClicked ++ pidTitleClicked))
        (start (runConfig none { viewProfile := some .beta })) = some next ∧
      next.frame = some shown ∧
      ShowsSorted tourSnapshot [] shown ⟨str "PID", 5, .pid, true⟩ (-1) := by
  have hrun : (Machine.run (step .insertion) (.frame tourSnapshot 40 120 0 :: pidTitleClicked)
      (start (runConfig none { viewProfile := some .beta }))).any (fun ui =>
        ui.state.viewProfile = .beta && ui.state.viewMode = .overview && ui.state.treeMode = false &&
          ui.state.sort = .pid && ui.state.sortDirection = 1 && ui.state.filter = [] &&
          (ui.frame.any fun frame => frame.layout.processY = 24) &&
          (Machine.run (step .insertion) pidTitleClicked ui).isSome) = true := by decide
  obtain ⟨ui, hui, hstate⟩ := Option.any_eq_true _ _ |>.mp hrun
  simp only [Bool.and_eq_true, decide_eq_true_eq, and_assoc] at hstate
  obtain ⟨hprofile, hview, hflat, hsort, hdirection, hfilter, hframe, hsome⟩ := hstate
  obtain ⟨frame, hframe, hline⟩ := Option.any_eq_true _ _ |>.mp hframe
  obtain ⟨next, hnext⟩ := Option.isSome_iff_exists.mp hsome
  have hclick : OnTitle frame
      (drawTitle frame.layout.cols frame.shown ⟨str "PID", 5, .pid, true⟩ 0)
      { key := keyMouse, mouse := some ⟨2, 25, true⟩ } := by
    refine ⟨List.mem_map.mpr ⟨(_, 0), List.mem_cons_self, rfl⟩, 2, 25, rfl, ?_, ?_⟩
    · have hcells : processColumnOffset 0 ≤ 2 ∧
          2 < processColumnOffset 0 + ((centeredText (str "PID") 5).length : ℤ) := by decide +kernel
      exact hcells
    · rw [of_decide_eq_true hline]
      decide
  have hidle : Idle (List.replicate 19 (.input {} {})) := fun move hmem =>
    ⟨{}, {}, List.eq_of_mem_replicate hmem, rfl⟩
  have hnumeric : ∀ process ∈ tourSnapshot.processes, process.Numeric := by
    simp [tourSnapshot, ProcessSnapshot.Numeric, OfNat.ofNat, Double.ofNat]
  obtain ⟨shown, direction, hshown, horder, -, hsorted, -⟩ := header_click_sorts .insertion none
    { viewProfile := some .beta } hui hframe hprofile hview hflat hclick rfl hidle
    ⟨by decide, hnumeric⟩ hnext
  have hbefore : ui.state.order = ⟨.pid, 1⟩ := by
    unfold UiState.order
    rw [hsort, hdirection]
  rw [hbefore] at horder
  obtain rfl : -1 = direction := congrArg SortState.direction horder
  rw [hfilter] at hsorted
  refine ⟨next, shown, ?_, hshown, hsorted⟩
  rw [← List.cons_append, Machine.run_append]
  exact Option.bind_eq_some_iff.mpr ⟨ui, hui, hnext⟩

end Mtop
