import Mtop.Library.CyclicTour
import Mtop.Ui.PromptRun
import Mtop.Ui.Search
import Mtop.Ui.TreeRows

/-! Searching again: the search prompt is opened with the last text in it, and Enter searches for that
text once more. While the listing stays the same, such searches go through all matching rows. -/
namespace Mtop
open Cxx
set_option autoImplicit false

/-! ## What is searched -/

/-- How many rows a search goes through, which of them match, and the row it starts behind. -/
@[ext]
structure SearchTable where
  size : ℕ
  hit : ℤ → Bool
  cursor : ℤ

def searchTable (σ : StdSort) (snapshot : SystemSnapshot) (state : UiState) : SearchTable :=
  match state.viewProfile with
  | .alpha =>
    let rows := (buildAlphaModel σ snapshot [] state).processRows
    ⟨rows.length, rowHit rows fun row => aiProcessMatchesQuery row state.search,
      clamp state.workloadIndex (-1) (rows.length - 1)⟩
  | .beta =>
    let rows := frameRows σ snapshot state
    ⟨rows.length, rowHit rows fun row => processMatchesQuery row.process state.search,
      selectedProcessIndex rows state.selectedPid⟩

/-- The matching rows from the one behind the cursor on, once around. -/
def SearchTable.tour (table : SearchTable) : List ℤ := tourFrom table.hit table.size table.cursor

/-- Where so many searches lead. -/
def SearchTable.After (table : SearchTable) (searches : ℕ) (cursor : ℤ) : Prop :=
  if searches = 0 ∨ table.tour = [] then cursor = table.cursor
  else table.tour[(searches - 1) % table.tour.length]? = some cursor

/-- One search: to the next match if there is any. -/
structure SearchTable.Next (before after : SearchTable) : Prop where
  size : after.size = before.size
  hit : after.hit = before.hit
  found : before.tour ≠ [] → NextHit before.hit before.cursor before.size after.cursor
  unfound : before.tour = [] → after.cursor = before.cursor

theorem SearchTable.After.next {table before after : SearchTable} {searches : ℕ}
    (hsize : before.size = table.size) (hhit : before.hit = table.hit)
    (h : table.After searches before.cursor) (hnext : before.Next after) :
    table.After (searches + 1) after.cursor := by
  have hempty : before.tour = [] ↔ table.tour = [] := by
    unfold SearchTable.tour
    simp only [List.eq_nil_iff_forall_not_mem, mem_tourFrom, hsize, hhit]
  unfold SearchTable.After at h ⊢
  rw [Nat.add_sub_cancel]
  by_cases htour : table.tour = []
  · rw [if_pos (.inr htour)] at h ⊢
    exact (hnext.unfound (hempty.mpr htour)).trans h
  · have hfound := hnext.found (mt hempty.mp htour)
    rw [hsize, hhit] at hfound
    rw [if_neg (not_or.mpr ⟨Nat.succ_ne_zero searches, htour⟩)]
    by_cases hfirst : searches = 0
    · rw [if_pos (.inl hfirst)] at h
      rw [hfirst]
      rw [h] at hfound
      exact hfound.visits_first
    · rw [if_neg (not_or.mpr ⟨hfirst, htour⟩)] at h
      have hvisit := Visits.next h hfound
      rwa [Nat.sub_add_cancel (Nat.pos_of_ne_zero hfirst)] at hvisit

/-! ## Frames -/

/-- The settings that decide what is listed and searched for. -/
def UiState.listing (state : UiState) : UiState :=
  { state.unframed with
    promptMode := .none, promptBuffer := [], promptSaved := [], pidSearch := []
    pidSearchDeadline := 0 }

theorem listing_of_unscrolled {state state' : UiState} (h : state'.unscrolled = state.unscrolled) :
    state'.listing = state.listing := by
  have hlisting := congrArg UiState.listing h
  exact hlisting

theorem viewProfile_of_listing {state state' : UiState} (h : state'.listing = state.listing) :
    state'.viewProfile = state.viewProfile := by
  have hprofile := congrArg UiState.viewProfile h
  exact hprofile

theorem search_of_listing {state state' : UiState} (h : state'.listing = state.listing) :
    state'.search = state.search := by
  have hsearch := congrArg UiState.search h
  exact hsearch

theorem searchTable_congr {σ : StdSort} {snapshot : SystemSnapshot} {state state' : UiState}
    (hlisting : state'.listing = state.listing)
    (hcursor : (state'.workloadIndex, state'.selectedPid) =
      (state.workloadIndex, state.selectedPid)) :
    searchTable σ snapshot state' = searchTable σ snapshot state := by
  have hparts : ∀ state : UiState, searchTable σ snapshot state = searchTable σ snapshot
      { state.listing with
        workloadIndex := state.workloadIndex, selectedPid := state.selectedPid } :=
    fun _ => rfl
  simp only [Prod.mk.injEq] at hcursor
  rw [hparts, hparts state, hlisting, hcursor.1, hcursor.2]

theorem searchTable_rows (σ : StdSort) (snapshot : SystemSnapshot) {state state' : UiState}
    (hlisting : state'.listing = state.listing) :
    (searchTable σ snapshot state').size = (searchTable σ snapshot state).size ∧
      (searchTable σ snapshot state').hit = (searchTable σ snapshot state).hit := by
  have hparts : ∀ state : UiState,
      (searchTable σ snapshot state).size = (searchTable σ snapshot state.listing).size ∧
        (searchTable σ snapshot state).hit = (searchTable σ snapshot state.listing).hit := by
    intro state
    have hprofile : state.listing.viewProfile = state.viewProfile := rfl
    unfold searchTable
    rw [hprofile]
    cases state.viewProfile <;> exact ⟨rfl, rfl⟩
  rw [(hparts state').1, (hparts state').2, hlisting]
  exact ⟨((hparts state).1).symm, ((hparts state).2).symm⟩

/-- The views with no popup in front, and with the search prompt or none. -/
structure Browsing (before : UiState) (mode : PromptMode) (pending : Bool) (state : UiState) :
    Prop where
  listing : state.listing = before.listing
  help : state.showHelp = false
  setup : state.showSetup = false
  processDetail : state.showProcessDetail = false
  workloadDetail : state.showWorkloadDetail = false
  prompt : state.promptMode = mode
  buffer : mode = .search → state.promptBuffer = state.search
  pending : state.searchPending = pending
  modal : Modal state

section Frames
variable (σ : StdSort) (layout : WindowLayout) (snapshot : SystemSnapshot)
  (history : List SystemSnapshot) (now : ℕ) {before state : UiState} {mode : PromptMode}
  {pending : Bool}

/-- Without popups a frame only draws. -/
theorem Browsing.drawn_eq (h : Browsing before mode pending state) :
    (buildFrame σ layout snapshot history now state).2 =
      drawFooter layout (buildFrame σ layout snapshot history now state).1.shown := by
  have hflags := congrArg (fun state : UiState =>
      (state.showHelp, state.showSetup, state.showWorkloadDetail, state.showProcessDetail))
    (buildFrame_shown_unscrolled σ layout snapshot history now state)
  change (_, _, _, _) = (state.showHelp, state.showSetup, state.showWorkloadDetail,
    state.showProcessDetail) at hflags
  rw [h.help, h.setup, h.workloadDetail, h.processDetail] at hflags
  simp only [Prod.mk.injEq] at hflags
  obtain ⟨hhelp, hsetup, hworkload, hprocess⟩ := hflags
  have hpopups : ∀ (state : UiState) (alpha : AlphaModel) (rows : List ProcessRow),
      state.showHelp = false → state.showSetup = false → state.showWorkloadDetail = false →
      state.showProcessDetail = false → drawPopups state alpha rows = state := by
    intro state alpha rows h1 h2 h3 h4
    unfold drawPopups
    rw [h1, h2, h3, h4]
    rfl
  exact hpopups _ _ _ hhelp hsetup hworkload hprocess

theorem Browsing.drawn (h : Browsing before mode pending state) :
    (buildFrame σ layout snapshot history now state).2.unscrolled = state.unscrolled := by
  rw [h.drawn_eq]
  exact buildFrame_shown_unscrolled σ layout snapshot history now state

theorem showRows_pending (alpha : AlphaModel) (rows : List ProcessRow) (state : UiState) :
    (showRows layout alpha rows state).shown.searchPending = state.searchPending := by
  rw [showRows_shown]
  unfold calculateProcessMetrics
  split <;> rfl

theorem Browsing.frame (h : Browsing before mode pending state) :
    Browsing before mode false (buildFrame σ layout snapshot history now state).2 := by
  have hdrawn := h.drawn σ layout snapshot history now
  have hparts := congrArg (fun state : UiState =>
    (state.listing, (state.showHelp, state.showSetup), (state.showProcessDetail,
      state.showWorkloadDetail), state.promptMode, state.promptBuffer, state.search)) hdrawn
  change (_, (_, _), (_, _), _, _, _) = (state.listing, (state.showHelp, state.showSetup),
    (state.showProcessDetail, state.showWorkloadDetail), state.promptMode, state.promptBuffer,
    state.search) at hparts
  simp only [Prod.mk.injEq] at hparts
  obtain ⟨hlisting, ⟨hhelp, hsetup⟩, ⟨hprocess, hworkload⟩, hprompt, hbuffer, hsearch⟩ := hparts
  constructor
  · exact hlisting.trans h.listing
  · exact hhelp.trans h.help
  · exact hsetup.trans h.setup
  · exact hprocess.trans h.processDetail
  · exact hworkload.trans h.workloadDetail
  · exact hprompt.trans h.prompt
  · exact fun hmode => (hbuffer.trans (h.buffer hmode)).trans hsearch.symm
  · rw [h.drawn_eq]
    exact (showRows_pending _ _ _ _).trans (UiState.applySearchRequest_pending _ _ _)
  · exact buildFrame_modal σ layout snapshot history now h.modal

/-! ## The cursor -/

theorem next_of_searches {α : Type} {rows : List α} {hit : α → Bool} {base cursor : ℤ}
    {landsOn : ℤ → Prop} {stays : Prop} (h : SearchesRows rows hit base landsOn stays)
    (hlands : ∀ index : ℤ, 0 ≤ index → index < rows.length → landsOn index → cursor = index)
    (hstays : stays → cursor = base) :
    SearchTable.Next ⟨rows.length, rowHit rows hit, base⟩ ⟨rows.length, rowHit rows hit, cursor⟩ where
  size := rfl
  hit := rfl
  found htour := by
    obtain ⟨index, hindex⟩ := List.exists_mem_of_ne_nil _ htour
    obtain ⟨row, hrow, hhit⟩ := rowHit_iff.mp (mem_hitsIn.mp (mem_tourFrom.mp hindex)).2
    obtain ⟨next, hnext, -, hon⟩ := h.found ⟨row, mem_of_rowAt hrow, hhit⟩
    dsimp only
    rw [hlands next hnext.inside.1 hnext.inside.2 hon]
    exact hnext
  unfound htour := by
    refine hstays (h.unfound fun row hrow => Bool.eq_false_iff.mpr fun hhit => ?_)
    obtain ⟨index, hlow, hhigh, hindex⟩ := rowHit_of_mem hrow hhit
    have hmem : index ∈ SearchTable.tour ⟨rows.length, rowHit rows hit, base⟩ :=
      mem_tourFrom.mpr (mem_hitsIn.mpr ⟨⟨hlow, hhigh⟩, hindex⟩)
    rw [htour] at hmem
    exact List.not_mem_nil hmem

/-- Paging forgets the selection only where nothing is listed. -/
theorem selectedProcessIndex_paged (rows : List ProcessRow) (state : UiState) (height : ℤ) :
    selectedProcessIndex rows (calculateProcessMetrics rows state height).2.selectedPid =
      selectedProcessIndex rows state.selectedPid := by
  by_cases hrows : rows = []
  · subst hrows
    cases state.selectedPid <;> rfl
  · rw [(calculateProcessMetrics_selected hrows state height).2]

/-- Drawing brings the index of the Alpha list into range, as the next search would. -/
theorem clamp_drawAlphaWorkloadsView (maxY : ℤ) {state : UiState} (alpha : AlphaModel)
    (h : 0 ≤ state.workloadIndex) :
    clamp (drawAlphaWorkloadsView maxY state alpha).1.workloadIndex (-1)
        (alpha.processRows.length - 1) =
      clamp state.workloadIndex (-1) (alpha.processRows.length - 1) := by
  unfold drawAlphaWorkloadsView
  split
  · rfl
  · split
    · rename_i hrows
      rw [hrows]
      unfold clamp
      dsimp only [List.length_nil]
      omega
    · rename_i hrows
      have hsize := List.length_pos_iff.mpr hrows
      unfold clamp
      dsimp only
      omega

theorem buildFrame_beta (h : state.viewProfile = .beta) :
    (buildFrame σ layout snapshot history now state).1 =
      showRows layout {} (frameRows σ snapshot state)
        (state.applySearchRequest now (frameRows σ snapshot state)) := by
  unfold buildFrame frameAlpha
  rw [h]

theorem applySearchRequest_served (h : state.searchPending = false) (rows : List ProcessRow) :
    state.applySearchRequest now rows = state := by
  unfold UiState.applySearchRequest
  rw [h]
  rfl

theorem buildFrame_alpha (h : state.viewProfile = .alpha) :
    ∃ rows, (buildFrame σ layout snapshot history now state).1 =
      showRows layout (buildAlphaModel σ snapshot history state) rows
        (state.applyAlphaSearchRequest now (buildAlphaModel σ snapshot history state)) := by
  unfold buildFrame frameAlpha
  rw [h]
  dsimp only
  rw [applySearchRequest_served now (state.applyAlphaSearchRequest_pending now _)]
  exact ⟨_, rfl⟩

theorem showRows_alpha_index (alpha : AlphaModel) (rows : List ProcessRow)
    (h : state.viewProfile = .alpha) :
    (showRows layout alpha rows state).shown.workloadIndex =
      (drawAlphaWorkloadsView layout.processHeight state alpha).1.workloadIndex := by
  have hpaged : ∀ paged : UiState, paged.viewProfile = state.viewProfile →
      paged.workloadIndex = state.workloadIndex → ∀ metrics,
      (drawProcessWindow layout paged alpha rows metrics).1.workloadIndex =
        (drawAlphaWorkloadsView layout.processHeight state alpha).1.workloadIndex := by
    intro paged hprofile hindex metrics
    unfold drawProcessWindow
    rw [hprofile, h]
    dsimp only
    unfold drawAlphaWorkloadsView
    rw [hindex]
    split
    · exact hindex
    · split <;> rfl
  refine hpaged _ ?_ ?_ _
  · unfold calculateProcessMetrics
    split <;> rfl
  · unfold calculateProcessMetrics
    split <;> rfl

theorem searchTable_alpha (h : state.viewProfile = .alpha) :
    searchTable σ snapshot state =
      ⟨(buildAlphaModel σ snapshot history state).processRows.length,
        rowHit (buildAlphaModel σ snapshot history state).processRows
          fun row => aiProcessMatchesQuery row state.search,
        clamp state.workloadIndex (-1)
          ((buildAlphaModel σ snapshot history state).processRows.length - 1)⟩ := by
  unfold searchTable
  rw [h]
  rfl

theorem searchTable_beta (h : state.viewProfile = .beta) :
    searchTable σ snapshot state =
      ⟨(frameRows σ snapshot state).length,
        rowHit (frameRows σ snapshot state) fun row => processMatchesQuery row.process state.search,
        selectedProcessIndex (frameRows σ snapshot state) state.selectedPid⟩ := by
  unfold searchTable
  rw [h]

theorem frameRows_listing {after : UiState} (h : after.listing = state.listing) :
    frameRows σ snapshot after = frameRows σ snapshot state := by
  have hparts : ∀ state : UiState, frameRows σ snapshot state = frameRows σ snapshot state.listing :=
    fun _ => rfl
  rw [hparts after, h, ← hparts state]

theorem alphaRows_listing {after : UiState} (h : after.listing = state.listing) :
    (buildAlphaModel σ snapshot history after).processRows =
      (buildAlphaModel σ snapshot history state).processRows := by
  have hparts : ∀ state : UiState, (buildAlphaModel σ snapshot history state).processRows =
      (buildAlphaModel σ snapshot history state.listing).processRows := fun _ => rfl
  rw [hparts after, h, ← hparts state]

/-- In Alpha the next search starts where the search of the frame, if there is one, has led. -/
theorem Browsing.alpha_table (h : Browsing before mode pending state)
    (hprofile : state.viewProfile = .alpha) :
    searchTable σ snapshot (buildFrame σ layout snapshot history now state).2 =
      searchTable σ snapshot
        (state.applyAlphaSearchRequest now (buildAlphaModel σ snapshot history state)) := by
  have hsearched := listing_of_unscrolled (applyAlphaSearchRequest_unscrolled now state
    (buildAlphaModel σ snapshot history state))
  have hdrawn := listing_of_unscrolled (h.drawn σ layout snapshot history now)
  have hprofile₁ := (viewProfile_of_listing hsearched).trans hprofile
  have hprofile₂ := (viewProfile_of_listing hdrawn).trans hprofile
  have hrows := searchTable_rows σ snapshot (hdrawn.trans hsearched.symm)
  have hindex := (applyAlphaSearchRequest_modal h.modal now
    (buildAlphaModel σ snapshot history state)).workloadIndex
  obtain ⟨rows, hframe⟩ := buildFrame_alpha σ layout snapshot history now hprofile
  refine SearchTable.ext hrows.1 hrows.2 ?_
  rw [searchTable_alpha σ snapshot history hprofile₂, searchTable_alpha σ snapshot history hprofile₁,
    alphaRows_listing σ snapshot history hdrawn, alphaRows_listing σ snapshot history hsearched,
    h.drawn_eq, hframe]
  show clamp (showRows _ _ _ _).shown.workloadIndex _ _ = _
  rw [showRows_alpha_index layout _ rows hprofile₁]
  exact clamp_drawAlphaWorkloadsView _ _ hindex

theorem Browsing.beta_table (h : Browsing before mode pending state)
    (hprofile : state.viewProfile = .beta) :
    searchTable σ snapshot (buildFrame σ layout snapshot history now state).2 =
      searchTable σ snapshot (state.applySearchRequest now (frameRows σ snapshot state)) := by
  have hsearched := listing_of_unscrolled
    (applySearchRequest_unscrolled now state (frameRows σ snapshot state))
  have hdrawn := listing_of_unscrolled (h.drawn σ layout snapshot history now)
  have hprofile₁ := (viewProfile_of_listing hsearched).trans hprofile
  have hprofile₂ := (viewProfile_of_listing hdrawn).trans hprofile
  have hrows := searchTable_rows σ snapshot (hdrawn.trans hsearched.symm)
  refine SearchTable.ext hrows.1 hrows.2 ?_
  rw [searchTable_beta σ snapshot hprofile₂, searchTable_beta σ snapshot hprofile₁,
    frameRows_listing σ snapshot hdrawn, frameRows_listing σ snapshot hsearched, h.drawn_eq,
    buildFrame_beta σ layout snapshot history now hprofile]
  show selectedProcessIndex _ (showRows _ _ _ _).shown.selectedPid = _
  rw [showRows_shown]
  exact selectedProcessIndex_paged _ _ _

/-- A frame that has no search to serve leaves the cursor where it is. -/
theorem Browsing.frame_stays (h : Browsing before mode false state) :
    searchTable σ snapshot (buildFrame σ layout snapshot history now state).2 =
      searchTable σ snapshot state := by
  cases hprofile : state.viewProfile with
  | alpha =>
    rw [h.alpha_table σ layout snapshot history now hprofile]
    unfold UiState.applyAlphaSearchRequest
    rw [h.pending]
    rfl
  | beta =>
    rw [h.beta_table σ layout snapshot history now hprofile, applySearchRequest_served now h.pending]

/-- A frame serves the search that has been asked for. -/
theorem Browsing.frame_next (h : Browsing before mode true state)
    (hpids : (rowPids (frameRows σ snapshot state)).Nodup) (hsearch : state.search ≠ []) :
    (searchTable σ snapshot state).Next
      (searchTable σ snapshot (buildFrame σ layout snapshot history now state).2) := by
  cases hprofile : state.viewProfile with
  | alpha =>
    have hsearched := listing_of_unscrolled (applyAlphaSearchRequest_unscrolled now state
      (buildAlphaModel σ snapshot history state))
    have hprofile₁ := (viewProfile_of_listing hsearched).trans hprofile
    rw [h.alpha_table σ layout snapshot history now hprofile,
      searchTable_alpha σ snapshot history hprofile, searchTable_alpha σ snapshot history hprofile₁,
      search_of_listing hsearched, alphaRows_listing σ snapshot history hsearched]
    refine next_of_searches (state.applyAlphaSearchRequest_searches now _ h.pending hsearch) ?_ ?_
    · intro index hlow hhigh hon
      rw [hon]
      exact clamp_eq_self (by omega) (by omega)
    · intro hstays
      rw [hstays]
  | beta =>
    have hsearched := listing_of_unscrolled
      (applySearchRequest_unscrolled now state (frameRows σ snapshot state))
    have hprofile₁ := (viewProfile_of_listing hsearched).trans hprofile
    rw [h.beta_table σ layout snapshot history now hprofile, searchTable_beta σ snapshot hprofile,
      searchTable_beta σ snapshot hprofile₁, search_of_listing hsearched,
      frameRows_listing σ snapshot hsearched]
    refine next_of_searches (state.applySearchRequest_searches now hpids h.pending hsearch) ?_ ?_
    · exact fun index _ _ hon => hon.2
    · intro hstays
      rw [hstays]

end Frames

/-- No pid is listed twice. -/
theorem frameRows_nodup (σ : StdSort) {snapshot : SystemSnapshot} (state : UiState)
    (hpids : (snapshot.processes.map (·.pid)).Nodup) :
    (rowPids (frameRows σ snapshot state)).Nodup := by
  have hsorted : ∀ keep : ProcessSnapshot → Bool,
      (rowPids ((σ.sort (rowLess state) (snapshot.processes.filter keep)).map
        fun process => { process })).Nodup := by
    intro keep
    have hperm := (σ.perm (rowLess state) (snapshot.processes.filter keep)).map (·.pid)
    unfold rowPids
    rw [List.map_map]
    exact hperm.nodup_iff.mpr (hpids.sublist (List.filter_sublist.map _))
  unfold frameRows
  split
  · exact hsorted _
  · cases htree : state.treeMode with
    | false =>
      unfold buildProcessRows
      rw [htree]
      exact hsorted _
    | true =>
      have hperm := (treeRows_perm σ hpids htree).map (·.pid)
      rw [List.map_map] at hperm
      exact hperm.nodup_iff.mpr (hpids.sublist (List.filter_sublist.map _))

/-! ## Keys -/

section Keys
variable {before : UiState} {pending : Bool} {ui : Ui} {event : InputEvent}

theorem Browsing.opens (h : Browsing before .none pending ui.state)
    (hkey : command event.key = .openSearch) (frame : Frame) (env : InputEnv) :
    Browsing before .search pending (processInput ui frame event env).state ∧
      (processInput ui frame event env).state =
        openPrompt ui.state .search ui.state.search := by
  have hmouse : event.key ≠ keyMouse := fun heq => by
    rw [heq] at hkey
    exact absurd hkey (by decide)
  have herr : event.key ≠ err := fun heq => by
    rw [heq] at hkey
    exact absurd hkey (by decide)
  have hinput : (processInput ui frame event env).state =
      openPrompt ui.state .search ui.state.search := by
    rw [processInput_key ui frame env rfl hmouse herr]
    unfold handleInput runCommand
    rw [h.help, h.setup, h.processDetail, h.workloadDetail, h.prompt, hkey]
    rfl
  refine ⟨?_, hinput⟩
  have hmodal := processInput_modal h.modal frame event env
  rw [hinput] at hmodal ⊢
  exact ⟨h.listing, h.help, h.setup, h.processDetail, h.workloadDetail, rfl, fun _ => rfl, h.pending,
    hmodal⟩

theorem Browsing.confirms (h : Browsing before .search pending ui.state)
    (hkey : isEnter event.key = true) (frame : Frame) (env : InputEnv) :
    Browsing before .none true (processInput ui frame event env).state ∧
      (processInput ui frame event env).state =
        { ui.state with search := ui.state.promptBuffer, searchPending := true, promptMode := .none } := by
  have hmouse : event.key ≠ keyMouse := fun heq => by
    rw [heq] at hkey
    exact absurd hkey (by decide)
  have herr : event.key ≠ err := fun heq => by
    rw [heq] at hkey
    exact absurd hkey (by decide)
  have hescape : event.key ≠ keyEscape := fun heq => by
    rw [heq] at hkey
    exact absurd hkey (by decide)
  have hinput : (processInput ui frame event env).state =
      { ui.state with
        search := ui.state.promptBuffer, searchPending := true, promptMode := .none } := by
    rw [processInput_key ui frame env rfl hmouse herr, handleInput_prompt env ui.config _ _ _ _
      h.modal.exclusive (by rw [h.prompt]; decide)]
    unfold handlePrompt confirmPrompt
    rw [if_neg hescape, hkey, if_pos rfl, h.prompt]
    rfl
  refine ⟨?_, hinput⟩
  have hmodal := processInput_modal h.modal frame event env
  rw [hinput] at hmodal ⊢
  refine ⟨?_, h.help, h.setup, h.processDetail, h.workloadDetail, rfl, nofun, rfl, hmodal⟩
  rw [h.buffer rfl]
  exact h.listing

theorem processInput_err (hkey : event.key = err) (frame : Frame) (env : InputEnv) :
    (processInput ui frame event env).state = ui.state := by
  unfold processInput translateEvent
  rw [hkey, if_neg (by decide : err ≠ keyMouse)]
  rfl

end Keys

/-! ## Rounds -/

/-- The keys that were pressed; `ERR` stands for none. -/
def pressedKeys (moves : List Move) : List ℤ := (typedKeys moves).filter (· ≠ err)

/-- One more search while this listing is shown: the prompt is opened and confirmed, and a frame
follows. Frames may also come in between. -/
structure SearchesAgain (snapshot : SystemSnapshot) (round : List Move) : Prop where
  keys : ∃ first last, pressedKeys round = [first, last] ∧ command first = .openSearch ∧
    isEnter last = true
  frames : ∀ shown rows cols now, Move.frame shown rows cols now ∈ round → shown = snapshot
  ends : ∃ moves rows cols now, round = moves ++ [.frame snapshot rows cols now]

section Rounds
variable (σ : StdSort) (snapshot : SystemSnapshot) (before : UiState)

/-- So many searches have led here from a state. -/
def Searched (searches : ℕ) (state : UiState) : Prop :=
  (searchTable σ snapshot before).After searches (searchTable σ snapshot state).cursor

/-- How far a round has come, by the keys that are still to be pressed. -/
inductive Round (searches : ℕ) : List ℤ → UiState → Prop
  | idle {first last : ℤ} {state : UiState} (hfirst : command first = .openSearch)
      (hlast : isEnter last = true) (h : Browsing before .none false state)
      (hsearched : Searched σ snapshot before searches state) : Round searches [first, last] state
  | prompted {last : ℤ} {state : UiState} (hlast : isEnter last = true)
      (h : Browsing before .search false state)
      (hsearched : Searched σ snapshot before searches state) : Round searches [last] state
  | asked {state : UiState} (h : Browsing before .none true state)
      (hsearched : Searched σ snapshot before searches state) : Round searches [] state
  | served {state : UiState} (h : Browsing before .none false state)
      (hsearched : Searched σ snapshot before (searches + 1) state) : Round searches [] state

variable {σ snapshot before} {searches : ℕ} {keys : List ℤ} {state : UiState}

theorem Searched.congr {after : UiState} (h : Searched σ snapshot before searches state)
    (hlisting : after.listing = state.listing)
    (hcursor : (after.workloadIndex, after.selectedPid) = (state.workloadIndex, state.selectedPid)) :
    Searched σ snapshot before searches after := by
  unfold Searched at h ⊢
  rwa [searchTable_congr hlisting hcursor]

section Frame
variable (hpids : (snapshot.processes.map (·.pid)).Nodup) (hsearch : before.search ≠ [])
  (layout : WindowLayout) (history : List SystemSnapshot) (now : ℕ)

theorem Searched.frame_stays {mode : PromptMode} (h : Browsing before mode false state)
    (hsearched : Searched σ snapshot before searches state) :
    Searched σ snapshot before searches (buildFrame σ layout snapshot history now state).2 := by
  unfold Searched at hsearched ⊢
  rwa [h.frame_stays σ layout snapshot history now]

include hpids hsearch

theorem Searched.frame_next (h : Browsing before .none true state)
    (hsearched : Searched σ snapshot before searches state) :
    Searched σ snapshot before (searches + 1)
      (buildFrame σ layout snapshot history now state).2 := by
  have hrows := searchTable_rows σ snapshot h.listing
  refine SearchTable.After.next hrows.1 hrows.2 hsearched ?_
  exact h.frame_next σ layout snapshot history now (frameRows_nodup σ state hpids)
    (by rwa [search_of_listing h.listing])

/-- With all keys pressed a frame completes the round. -/
theorem Round.serve (h : Round σ snapshot before searches [] state) :
    Browsing before .none false (buildFrame σ layout snapshot history now state).2 ∧
      Searched σ snapshot before (searches + 1)
        (buildFrame σ layout snapshot history now state).2 := by
  cases h with
  | asked h hsearched =>
    exact ⟨h.frame σ layout snapshot history now,
      hsearched.frame_next hpids hsearch layout history now h⟩
  | served h hsearched =>
    exact ⟨h.frame σ layout snapshot history now, hsearched.frame_stays layout history now h⟩

theorem Round.frame (h : Round σ snapshot before searches keys state) :
    Round σ snapshot before searches keys (buildFrame σ layout snapshot history now state).2 := by
  cases h with
  | idle hfirst hlast h hsearched =>
    exact .idle hfirst hlast (h.frame σ layout snapshot history now)
      (hsearched.frame_stays layout history now h)
  | prompted hlast h hsearched =>
    exact .prompted hlast (h.frame σ layout snapshot history now)
      (hsearched.frame_stays layout history now h)
  | asked h hsearched =>
    have hserved := Round.serve hpids hsearch layout history now (.asked h hsearched)
    exact .served hserved.1 hserved.2
  | served h hsearched =>
    have hserved := Round.serve hpids hsearch layout history now (.served h hsearched)
    exact .served hserved.1 hserved.2

end Frame

theorem Round.input {ui : Ui} {event : InputEvent}
    (h : Round σ snapshot before searches (event.key :: keys) ui.state) (frame : Frame)
    (env : InputEnv) :
    Round σ snapshot before searches keys (processInput ui frame event env).state := by
  generalize hall : event.key :: keys = all at h
  cases h with
  | idle hfirst hlast h hsearched =>
    obtain ⟨rfl, rfl⟩ := List.cons.inj hall
    obtain ⟨hopen, hstate⟩ := h.opens hfirst frame env
    refine .prompted hlast hopen (hsearched.congr ?_ ?_)
    · exact hopen.listing.trans h.listing.symm
    · rw [hstate]
      rfl
  | prompted hlast h hsearched =>
    obtain ⟨rfl, rfl⟩ := List.cons.inj hall
    obtain ⟨hasked, hstate⟩ := h.confirms hlast frame env
    refine .asked hasked (hsearched.congr ?_ ?_)
    · exact hasked.listing.trans h.listing.symm
    · rw [hstate]
  | asked h hsearched => cases hall
  | served h hsearched => cases hall

end Rounds

/-! ## Runs -/

section Runs
variable {σ : StdSort} {snapshot : SystemSnapshot} {before : UiState} {searches : ℕ}
  (hpids : (snapshot.processes.map (·.pid)).Nodup) (hsearch : before.search ≠ [])
include hpids hsearch

theorem Round.run {moves : List Move}
    (hframes : ∀ shown rows cols now, Move.frame shown rows cols now ∈ moves → shown = snapshot)
    {ui ui' : Ui} (h : Round σ snapshot before searches (pressedKeys moves) ui.state)
    (hrun : Machine.run (step σ) moves ui = some ui') :
    Round σ snapshot before searches [] ui'.state := by
  induction moves generalizing ui with
  | nil =>
    cases hrun
    exact h
  | cons move moves ih =>
    obtain ⟨mid, hstep, hrest⟩ := Machine.run_cons hrun
    refine ih (fun shown rows cols now hmem =>
      hframes shown rows cols now (List.mem_cons_of_mem _ hmem)) ?_ hrest
    cases move with
    | frame shown rows cols now =>
      obtain rfl := hframes shown rows cols now List.mem_cons_self
      obtain ⟨-, rfl⟩ := step_frame_iff.mp hstep
      exact Round.frame hpids hsearch _ _ _ h
    | input event env =>
      obtain ⟨frame, -, -, rfl⟩ := step_input_iff.mp hstep
      show Round σ snapshot before searches (pressedKeys moves)
        (processInput ui frame event env).state
      have hkeys : pressedKeys (.input event env :: moves) =
          if event.key = err then pressedKeys moves else event.key :: pressedKeys moves := by
        show (event.key :: typedKeys moves).filter _ = _
        rw [List.filter_cons]
        by_cases hkey : event.key = err
        · rw [if_pos hkey, if_neg (by simpa using hkey)]
          rfl
        · rw [if_neg hkey, if_pos (by simpa using hkey)]
          rfl
      rw [hkeys] at h
      by_cases hkey : event.key = err
      · rw [if_pos hkey] at h
        rwa [processInput_err hkey]
      · rw [if_neg hkey] at h
        exact h.input frame env

theorem round_run {round : List Move} (hround : SearchesAgain snapshot round) {ui ui' : Ui}
    (h : Browsing before .none false ui.state)
    (hsearched : Searched σ snapshot before searches ui.state)
    (hrun : Machine.run (step σ) round ui = some ui') :
    Browsing before .none false ui'.state ∧
      Searched σ snapshot before (searches + 1) ui'.state := by
  obtain ⟨first, last, hkeys, hfirst, hlast⟩ := hround.keys
  obtain ⟨moves, rows, cols, now, rfl⟩ := hround.ends
  rw [Machine.run_append] at hrun
  obtain ⟨mid, hmid, hframe⟩ := Option.bind_eq_some_iff.mp hrun
  have hpressed : pressedKeys moves = [first, last] := by
    rw [← hkeys]
    unfold pressedKeys typedKeys
    rw [List.filterMap_append]
    exact congrArg (List.filter _) (List.append_nil _).symm
  have hasked : Round σ snapshot before searches [] mid.state := by
    refine Round.run hpids hsearch (fun shown rows cols now hmem =>
      hround.frames shown rows cols now (List.mem_append_left _ hmem)) ?_ hmid
    rw [hpressed]
    exact .idle hfirst hlast h hsearched
  obtain ⟨last, hlast, hnone⟩ := Machine.run_cons hframe
  cases hnone
  obtain ⟨-, rfl⟩ := step_frame_iff.mp hlast
  exact Round.serve hpids hsearch _ _ _ hasked

theorem rounds_run {rounds : List (List Move)} (hrounds : ∀ round ∈ rounds, SearchesAgain snapshot round)
    {ui ui' : Ui} (h : Browsing before .none false ui.state)
    (hsearched : Searched σ snapshot before searches ui.state)
    (hrun : Machine.run (step σ) rounds.flatten ui = some ui') :
    Searched σ snapshot before (searches + rounds.length) ui'.state := by
  induction rounds generalizing ui searches with
  | nil =>
    cases hrun
    exact hsearched
  | cons round rounds ih =>
    rw [List.flatten_cons, Machine.run_append] at hrun
    obtain ⟨mid, hmid, hrest⟩ := Option.bind_eq_some_iff.mp hrun
    obtain ⟨hbrowsing, hone⟩ := round_run hpids hsearch (hrounds round List.mem_cons_self) h
      hsearched hmid
    rw [List.length_cons, ← Nat.add_assoc, Nat.add_right_comm]
    exact ih (fun round hmem => hrounds round (List.mem_cons_of_mem _ hmem)) hbrowsing hone hrest

end Runs

/-- With a search text and nothing open, searching again and again, while the same processes are listed,
goes through all matching rows in turn from the one behind the selection, and then through them once
more. -/
theorem search_tour (σ : StdSort) (file : Option Text) (options : SettingOptions)
    {moves : List Move} {ui : Ui}
    (hreach : Machine.run (step σ) moves (start (runConfig file options)) = some ui)
    (hclosed : ui.state.openCount = 0) (hpending : ui.state.searchPending = false)
    (hsearch : ui.state.search ≠ []) {snapshot : SystemSnapshot}
    (hpids : (snapshot.processes.map (·.pid)).Nodup) {rounds : List (List Move)}
    (hrounds : ∀ round ∈ rounds, SearchesAgain snapshot round) {ui' : Ui}
    (hrun : Machine.run (step σ) rounds.flatten ui = some ui') :
    (searchTable σ snapshot ui.state).After rounds.length
      (searchTable σ snapshot ui'.state).cursor := by
  obtain ⟨hhelp, hsetup, hprocess, hworkload, hprompt⟩ := openCount_eq_zero.mp hclosed
  have hbrowsing : Browsing ui.state .none false ui.state :=
    ⟨rfl, hhelp, hsetup, hprocess, hworkload, hprompt, nofun, hpending,
      reached_modal hreach⟩
  have hstart : Searched σ snapshot ui.state 0 ui.state := by
    unfold Searched SearchTable.After
    rw [if_pos (.inl rfl)]
  have hsearched := rounds_run hpids hsearch hrounds hbrowsing hstart hrun
  rwa [Nat.zero_add] at hsearched

/-- Two of three names have an `a`. -/
def tourSnapshot : SystemSnapshot where
  processes := [{ pid := 10, name := ['a'] }, { pid := 20, name := ['b'] },
    { pid := 30, name := ['c', 'a'] }]

/-- Keys, and nothing else until the next frame is due. -/
def pressKeys (keys : List ℤ) : List Move :=
  (keys ++ List.replicate (inputsPerFrame - keys.length) err).map fun key => .input { key } {}

def pressThenFrame (keys : List ℤ) : List Move := pressKeys keys ++ [.frame tourSnapshot 40 120 0]

def searchTyped : List Move :=
  .frame tourSnapshot 40 120 0 :: pressThenFrame [key '/', key 'a', key '\n']

theorem searchesAgain_pressThenFrame :
    SearchesAgain tourSnapshot (pressThenFrame [key '/', keyEnter]) where
  keys := ⟨key '/', keyEnter, by decide, by decide, by decide⟩
  frames := by
    intro shown rows cols now hmem
    rcases List.mem_append.mp hmem with hmem | hmem
    · obtain ⟨key, -, hkey⟩ := List.mem_map.mp hmem
      cases hkey
    · cases List.mem_singleton.mp hmem
      rfl
  ends := ⟨_, 40, 120, 0, rfl⟩

theorem search_tour_thrice :
    ∃ ui ui', Machine.run (step .insertion) searchTyped
        (start (runConfig none { viewProfile := some .beta })) = some ui ∧
      Machine.run (step .insertion)
        (List.replicate 3 (pressThenFrame [key '/', keyEnter])).flatten ui = some ui' ∧
      (searchTable .insertion tourSnapshot ui.state).tour = [2, 0] ∧
      (searchTable .insertion tourSnapshot ui.state).After 3
        (searchTable .insertion tourSnapshot ui'.state).cursor := by
  have hrun : ((Machine.run (step .insertion) searchTyped
      (start (runConfig none { viewProfile := some .beta }))).map fun ui =>
        (ui.state.openCount, ui.state.searchPending, ui.state.search,
          (searchTable .insertion tourSnapshot ui.state).tour,
          (Machine.run (step .insertion)
            (List.replicate 3 (pressThenFrame [key '/', keyEnter])).flatten ui).isSome)) =
      some (0, false, ['a'], [2, 0], true) := by decide +kernel
  obtain ⟨ui, hui, hstate⟩ := Option.map_eq_some_iff.mp hrun
  simp only [Prod.mk.injEq] at hstate
  obtain ⟨hclosed, hpending, hsearch, htour, hsome⟩ := hstate
  obtain ⟨ui', hui'⟩ := Option.isSome_iff_exists.mp hsome
  refine ⟨ui, ui', hui, hui', htour, ?_⟩
  exact search_tour .insertion none { viewProfile := some .beta } hui hclosed hpending
    (by rw [hsearch]; exact List.cons_ne_nil _ _) (by decide)
    (fun round hround => List.eq_of_mem_replicate hround ▸ searchesAgain_pressThenFrame) hui'

end Mtop
