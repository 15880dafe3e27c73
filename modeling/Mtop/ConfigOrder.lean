import Mtop.ConfigPersist
import Mtop.Library.StdSort

/-! The order of the lines of the settings file. Distinct keys do not disturb each other, but for the
sort direction, which two keys set. -/
namespace Mtop
open Cxx
set_option autoImplicit false

/-! ## One setting -/

/-- Each field listens to its own key, and the direction to that of the sort mode as well. -/
theorem setValue_eq (key value : Text) (config : AppConfig) :
    setValue key value config =
      { theme := if key = str "theme" ∧ value ≠ [] then value else config.theme
        refreshMs :=
          if key = str "refresh_ms" ∧ value ≠ [] then
            clamp ((parseInt value).getD config.refreshMs) 100 60000
          else config.refreshMs
        processLimit :=
          if key = str "process_limit" ∧ value ≠ [] then
            clamp ((parseInt value).getD config.processLimit) 4 1000
          else config.processLimit
        demoMode :=
          if key = str "demo_mode" then parseBool value config.demoMode else config.demoMode
        rootSampleMs :=
          if key = str "root_sample_ms" ∧ value ≠ [] then
            clamp ((parseInt value).getD config.rootSampleMs) 250 60000
          else config.rootSampleMs
        snapshotIntervalMs :=
          if key = str "snapshot_interval_ms" ∧ value ≠ [] then
            clamp ((parseInt value).getD config.snapshotIntervalMs) 100 60000
          else config.snapshotIntervalMs
        showCachedMemory :=
          if key = str "show_cached_memory" then parseBool value config.showCachedMemory
          else config.showCachedMemory
        defaultView :=
          if key = str "default_view" ∧ value ≠ [] then parseViewMode value config.defaultView
          else config.defaultView
        sort :=
          if key = str "sort" ∧ value ≠ [] then parseSortMode value config.sort else config.sort
        sortDirection :=
          if key = str "sort" ∧ value ≠ [] then
            defaultSortDirection (parseSortMode value config.sort)
          else if key = str "sort_direction" ∧ value ≠ [] then
            parseSortDirection value config.sortDirection
          else config.sortDirection
        viewProfile :=
          if key = str "view_profile" ∧ value ≠ [] then (parseViewProfile value).getD .alpha
          else config.viewProfile } := by
  unfold setValue
  by_cases h : key = str "theme" ∧ value ≠ []
  · obtain ⟨rfl, hvalue⟩ := h
    simp only [str_inj, String.reduceEq, false_and, if_false, hvalue, and_self, if_true, ne_eq,
      not_false_eq_true]
  rw [if_neg h, if_neg h]
  by_cases h : key = str "refresh_ms" ∧ value ≠ []
  · obtain ⟨rfl, hvalue⟩ := h
    simp only [str_inj, String.reduceEq, false_and, if_false, hvalue, and_self, if_true, ne_eq,
      not_false_eq_true]
  rw [if_neg h, if_neg h]
  by_cases h : key = str "process_limit" ∧ value ≠ []
  · obtain ⟨rfl, hvalue⟩ := h
    simp only [str_inj, String.reduceEq, false_and, if_false, hvalue, and_self, if_true, ne_eq,
      not_false_eq_true]
  rw [if_neg h, if_neg h]
  by_cases h : key = str "demo_mode"
  · subst h
    simp only [str_inj, String.reduceEq, false_and, if_false, if_true]
  rw [if_neg h, if_neg h]
  by_cases h : key = str "root_sample_ms" ∧ value ≠ []
  · obtain ⟨rfl, hvalue⟩ := h
    simp only [str_inj, String.reduceEq, false_and, if_false, hvalue, and_self, if_true, ne_eq,
      not_false_eq_true]
  rw [if_neg h, if_neg h]
  by_cases h : key = str "snapshot_interval_ms" ∧ value ≠ []
  · obtain ⟨rfl, hvalue⟩ := h
    simp only [str_inj, String.reduceEq, false_and, if_false, hvalue, and_self, if_true, ne_eq,
      not_false_eq_true]
  rw [if_neg h, if_neg h]
  by_cases h : key = str "show_cached_memory"
  · subst h
    simp only [str_inj, String.reduceEq, false_and, if_false, if_true]
  rw [if_neg h, if_neg h]
  by_cases h : key = str "default_view" ∧ value ≠ []
  · obtain ⟨rfl, hvalue⟩ := h
    simp only [str_inj, String.reduceEq, false_and, if_false, hvalue, and_self, if_true, ne_eq,
      not_false_eq_true]
  rw [if_neg h, if_neg h]
  by_cases h : key = str "sort" ∧ value ≠ []
  · obtain ⟨rfl, hvalue⟩ := h
    simp only [str_inj, String.reduceEq, false_and, if_false, hvalue, and_self, if_true, ne_eq,
      not_false_eq_true]
  rw [if_neg h, if_neg h, if_neg h]
  by_cases h : key = str "sort_direction" ∧ value ≠ []
  · obtain ⟨rfl, hvalue⟩ := h
    simp only [str_inj, String.reduceEq, false_and, if_false, hvalue, and_self, if_true, ne_eq,
      not_false_eq_true]
  rw [if_neg h, if_neg h]
  by_cases h : key = str "view_profile" ∧ value ≠ []
  · obtain ⟨rfl, hvalue⟩ := h
    simp only [hvalue, and_self, if_true, ne_eq, not_false_eq_true]
  rw [if_neg h, if_neg h]

/-! ## Settings with distinct keys -/

/-- All settings but the sort direction. -/
def AppConfig.undirected (config : AppConfig) : AppConfig := { config with sortDirection := 0 }

/-- The settings that the loader reads off the lines. -/
def settings (lines : List Text) : List (Text × Text) :=
  lines.filterMap fun line => settingOf (trim line)

def applySettings (entries : List (Text × Text)) (config : AppConfig) : AppConfig :=
  entries.foldl (fun config entry => setValue entry.1 entry.2 config) config

theorem loadLines_settings (lines : List Text) (config : AppConfig) :
    loadLines lines config = applySettings (settings lines) config := by
  induction lines generalizing config with
  | nil => rfl
  | cons line lines ih =>
    show loadLines lines (parseLine (trim line) config) = _
    rw [ih, parseLine_eq]
    unfold settings
    rw [List.filterMap_cons]
    cases settingOf (trim line) <;> rfl

theorem settings_perm {lines lines' : List Text} (h : lines.Perm lines') :
    (settings lines).Perm (settings lines') := h.filterMap _

section Distinct
variable {entries entries' : List (Text × Text)}

theorem eq_of_key (hkeys : (entries.map Prod.fst).Nodup) {a b : Text × Text} (ha : a ∈ entries)
    (hb : b ∈ entries) (h : a.1 = b.1) : a = b := List.inj_on_of_nodup_map hkeys ha hb h

/-- A field that only its own key sets is the same for every order of distinct keys. -/
theorem field_perm {α : Type} (get : AppConfig → α) (name : String) (update : Text → α → α)
    (hget : ∀ key value config, get (setValue key value config) =
      if key = str name then update value (get config) else get config)
    (hkeys : (entries.map Prod.fst).Nodup) (hperm : entries.Perm entries') (config : AppConfig) :
    get (applySettings entries config) = get (applySettings entries' config) := by
  let step (x : α) (entry : Text × Text) : α :=
    if entry.1 = str name then update entry.2 x else x
  have hfold : ∀ entries config,
      get (applySettings entries config) = entries.foldl step (get config) := by
    intro entries
    induction entries with
    | nil => exact fun _ => rfl
    | cons entry entries ih =>
      intro config
      show get (applySettings entries (setValue entry.1 entry.2 config)) = _
      rw [ih, hget]
      rfl
  rw [hfold, hfold]
  refine hperm.foldl_eq' (fun a ha b hb x => ?_) _
  by_cases hname : a.1 = str name ∧ b.1 = str name
  · rw [eq_of_key hkeys ha hb (hname.1.trans hname.2.symm)]
  · simp only [step]
    rcases not_and_or.mp hname with h | h <;> simp only [h, if_false]

theorem applySettings_undirected (hkeys : (entries.map Prod.fst).Nodup)
    (hperm : entries.Perm entries') (config : AppConfig) :
    (applySettings entries config).undirected = (applySettings entries' config).undirected := by
  have field {α : Type} (get : AppConfig → α) (name : String) (update : Text → α → α)
      (hget : ∀ key value config, get (setValue key value config) =
        if key = str name ∧ value ≠ [] then update value (get config) else get config) :
      get (applySettings entries config) = get (applySettings entries' config) :=
    field_perm get name (fun value old => if value ≠ [] then update value old else old)
      (fun key value config => (hget key value config).trans (ite_and _ _ _ _)) hkeys hperm config
  have htheme := field AppConfig.theme "theme" (fun value _ => value)
    fun _ _ _ => by rw [setValue_eq]
  have hrefresh := field AppConfig.refreshMs "refresh_ms"
    (fun value old => clamp ((parseInt value).getD old) 100 60000) fun _ _ _ => by rw [setValue_eq]
  have hlimit := field AppConfig.processLimit "process_limit"
    (fun value old => clamp ((parseInt value).getD old) 4 1000) fun _ _ _ => by rw [setValue_eq]
  have hdemo := field_perm AppConfig.demoMode "demo_mode" parseBool
    (fun _ _ _ => by rw [setValue_eq]) hkeys hperm config
  have hroot := field AppConfig.rootSampleMs "root_sample_ms"
    (fun value old => clamp ((parseInt value).getD old) 250 60000) fun _ _ _ => by rw [setValue_eq]
  have hinterval := field AppConfig.snapshotIntervalMs "snapshot_interval_ms"
    (fun value old => clamp ((parseInt value).getD old) 100 60000) fun _ _ _ => by rw [setValue_eq]
  have hcached := field_perm AppConfig.showCachedMemory "show_cached_memory" parseBool
    (fun _ _ _ => by rw [setValue_eq]) hkeys hperm config
  have hview := field AppConfig.defaultView "default_view" parseViewMode
    fun _ _ _ => by rw [setValue_eq]
  have hsort := field AppConfig.sort "sort" parseSortMode fun _ _ _ => by rw [setValue_eq]
  have hprofile := field AppConfig.viewProfile "view_profile"
    (fun value _ => (parseViewProfile value).getD .alpha) fun _ _ _ => by rw [setValue_eq]
  unfold AppConfig.undirected
  rw [AppConfig.mk.injEq]
  exact ⟨htheme, hrefresh, hlimit, hdemo, hroot, hinterval, hcached, hview, hsort, rfl, hprofile⟩

/-! ## The direction -/

/-- What a setting does to the direction once the sort mode is known. -/
def directionStep (mode : SortMode) (direction : ℤ) (entry : Text × Text) : ℤ :=
  if entry.1 = str "sort" ∧ entry.2 ≠ [] then defaultSortDirection mode
  else if entry.1 = str "sort_direction" ∧ entry.2 ≠ [] then
    parseSortDirection entry.2 direction
  else direction

theorem sort_untouched (h : ∀ entry ∈ entries, entry.1 ≠ str "sort") (config : AppConfig) :
    (applySettings entries config).sort = config.sort := by
  induction entries generalizing config with
  | nil => rfl
  | cons entry entries ih =>
    show (applySettings entries (setValue entry.1 entry.2 config)).sort = _
    rw [ih fun other hother => h other (List.mem_cons_of_mem _ hother), setValue_eq]
    exact if_neg fun hsort => h entry List.mem_cons_self hsort.1

theorem direction_untouched (h : ∀ entry ∈ entries, entry.1 ≠ str "sort")
    (h' : ∀ entry ∈ entries, entry.1 ≠ str "sort_direction") (mode : SortMode) (direction : ℤ) :
    entries.foldl (directionStep mode) direction = direction := by
  induction entries with
  | nil => rfl
  | cons entry entries ih =>
    have hstep : directionStep mode direction entry = direction := by
      unfold directionStep
      rw [if_neg fun hsort => h entry List.mem_cons_self hsort.1,
        if_neg fun hdirection => h' entry List.mem_cons_self hdirection.1]
    rw [List.foldl_cons, hstep]
    exact ih (fun other hother => h other (List.mem_cons_of_mem _ hother))
      fun other hother => h' other (List.mem_cons_of_mem _ hother)

/-- With distinct keys the direction is set in the order of the lines, for the final sort mode. -/
theorem direction_foldl (hkeys : (entries.map Prod.fst).Nodup) (config : AppConfig) :
    (applySettings entries config).sortDirection =
      entries.foldl (directionStep (applySettings entries config).sort) config.sortDirection := by
  induction entries generalizing config with
  | nil => rfl
  | cons entry entries ih =>
    rw [List.map_cons, List.nodup_cons] at hkeys
    show (applySettings entries (setValue entry.1 entry.2 config)).sortDirection =
      entries.foldl (directionStep (applySettings entries (setValue entry.1 entry.2 config)).sort)
        (directionStep (applySettings entries (setValue entry.1 entry.2 config)).sort
          config.sortDirection entry)
    rw [ih hkeys.2]
    congr 1
    unfold directionStep
    by_cases hsort : entry.1 = str "sort" ∧ entry.2 ≠ []
    · have hlater : ∀ other ∈ entries, other.1 ≠ str "sort" := fun other hother hkey =>
        hkeys.1 (List.mem_map.mpr ⟨other, hother, hkey.trans hsort.1.symm⟩)
      rw [sort_untouched hlater, setValue_eq]
      dsimp only
      rw [if_pos hsort, if_pos hsort, if_pos hsort]
    · rw [setValue_eq]
      dsimp only
      rw [if_neg hsort, if_neg hsort]

theorem sort_of_mem (hkeys : (entries.map Prod.fst).Nodup) {mode : Text}
    (h : (str "sort", mode) ∈ entries) (hmode : mode ≠ []) (config : AppConfig) :
    (applySettings entries config).sort = parseSortMode mode config.sort := by
  have hperm := List.perm_cons_erase h
  have hkeys' : (str "sort" :: (entries.erase (str "sort", mode)).map Prod.fst).Nodup :=
    (hperm.map Prod.fst).nodup_iff.mp hkeys
  have hlater : ∀ other ∈ entries.erase (str "sort", mode), other.1 ≠ str "sort" :=
    fun other hother hkey =>
      (List.nodup_cons.mp hkeys').1 (List.mem_map.mpr ⟨other, hother, hkey⟩)
  have hfront := congrArg AppConfig.sort (applySettings_undirected hkeys hperm config)
  refine hfront.trans ?_
  show (applySettings _ (setValue (str "sort") mode config)).sort = _
  rw [sort_untouched hlater, setValue_eq]
  exact if_pos ⟨rfl, hmode⟩

/-- A sort mode and a direction are set, and the direction is not the default of the mode. -/
def DirectionContested (entries : List (Text × Text)) : Prop :=
  ∃ mode direction, (str "sort", mode) ∈ entries ∧ mode ≠ [] ∧
    (str "sort_direction", direction) ∈ entries ∧ direction ≠ [] ∧
      parseSortDirection direction (defaultSortDirection (parseSortMode mode .cpu)) ≠
        defaultSortDirection (parseSortMode mode .cpu)

theorem directionStep_comm (hkeys : (entries.map Prod.fst).Nodup)
    (hfree : ¬ DirectionContested entries) {a b : Text × Text} (ha : a ∈ entries) (hb : b ∈ entries)
    (direction : ℤ) :
    directionStep (applySettings entries {}).sort
        (directionStep (applySettings entries {}).sort direction a) b =
      directionStep (applySettings entries {}).sort
        (directionStep (applySettings entries {}).sort direction b) a := by
  by_cases hsame : a.1 = b.1
  · rw [eq_of_key hkeys ha hb hsame]
  have hsettled : ∀ x ∈ entries, ∀ y ∈ entries, x.1 = str "sort" ∧ x.2 ≠ [] →
      y.1 = str "sort_direction" ∧ y.2 ≠ [] →
        parseSortDirection y.2 (defaultSortDirection (applySettings entries {}).sort) =
          defaultSortDirection (applySettings entries {}).sort := by
    rintro ⟨_, mode⟩ hx ⟨_, direction⟩ hy ⟨rfl, hmode⟩ ⟨rfl, hdirection⟩
    rw [sort_of_mem hkeys hx hmode]
    by_contra hne
    exact hfree ⟨mode, direction, hx, hmode, hy, hdirection, hne⟩
  unfold directionStep
  by_cases hsa : a.1 = str "sort" ∧ a.2 ≠ []
  · have hsb : ¬ (b.1 = str "sort" ∧ b.2 ≠ []) := fun h => hsame (hsa.1.trans h.1.symm)
    by_cases hdb : b.1 = str "sort_direction" ∧ b.2 ≠ []
    · simp only [if_pos hsa, if_neg hsb, if_pos hdb]
      exact hsettled a ha b hb hsa hdb
    · simp only [if_pos hsa, if_neg hsb, if_neg hdb]
  · by_cases hda : a.1 = str "sort_direction" ∧ a.2 ≠ []
    · have hdb : ¬ (b.1 = str "sort_direction" ∧ b.2 ≠ []) := fun h =>
        hsame (hda.1.trans h.1.symm)
      by_cases hsb : b.1 = str "sort" ∧ b.2 ≠ []
      · simp only [if_neg hsa, if_pos hda, if_pos hsb]
        exact (hsettled b hb a ha hsb hda).symm
      · simp only [if_neg hsa, if_pos hda, if_neg hsb, if_neg hdb]
    · simp only [if_neg hsa, if_neg hda]

theorem applySettings_perm (hkeys : (entries.map Prod.fst).Nodup) (hperm : entries.Perm entries')
    (hfree : ¬ DirectionContested entries) :
    applySettings entries {} = applySettings entries' {} := by
  have hkeys' : (entries'.map Prod.fst).Nodup := (hperm.map Prod.fst).nodup_iff.mp hkeys
  have hothers := applySettings_undirected hkeys hperm {}
  have hsort : (applySettings entries {}).sort = (applySettings entries' {}).sort := by
    have hfields := congrArg AppConfig.sort hothers
    exact hfields
  have hdirection : (applySettings entries {}).sortDirection =
      (applySettings entries' {}).sortDirection := by
    rw [direction_foldl hkeys, direction_foldl hkeys', ← hsort]
    exact hperm.foldl_eq' (fun a ha b hb z => directionStep_comm hkeys hfree ha hb z) _
  have hback : ∀ config : AppConfig,
      config = { config.undirected with sortDirection := config.sortDirection } := fun _ => rfl
  rw [hback (applySettings entries {}), hback (applySettings entries' {}), hothers, hdirection]

/-- A `sort` line with no direction behind it leaves the default of its mode. -/
theorem direction_after_sort {mode : Text} {before after : List (Text × Text)}
    (hkeys : ((before ++ (str "sort", mode) :: after).map Prod.fst).Nodup) (hmode : mode ≠ [])
    (hafter : ∀ entry ∈ after, entry.1 ≠ str "sort_direction") (sort : SortMode) (direction : ℤ) :
    (before ++ (str "sort", mode) :: after).foldl (directionStep sort) direction =
      defaultSortDirection sort := by
  rw [List.map_append, List.map_cons] at hkeys
  have hlater : ∀ entry ∈ after, entry.1 ≠ str "sort" := fun entry h hkey =>
    (List.nodup_cons.mp (List.nodup_append.mp hkeys).2.1).1 (List.mem_map.mpr ⟨entry, h, hkey⟩)
  have hstep : ∀ z, directionStep sort z (str "sort", mode) = defaultSortDirection sort :=
    fun z => if_pos ⟨rfl, hmode⟩
  rw [List.foldl_append, List.foldl_cons, hstep, direction_untouched hlater hafter]

/-- Behind one setting of a list with distinct keys there is no other with the key of an earlier one. -/
theorem precedes_split {a b : Text × Text} (h : Precedes entries a b)
    (hkeys : (entries.map Prod.fst).Nodup) :
    ∃ before after, entries = before ++ b :: after ∧ a ∈ before ∧
      ∀ entry ∈ after, entry.1 ≠ a.1 ∧ entry.1 ≠ b.1 := by
  obtain ⟨first, second, rfl, ha, hb⟩ := List.cons_sublist_iff.mp h
  obtain ⟨middle, after, rfl⟩ := List.append_of_mem (List.singleton_sublist.mp hb)
  refine ⟨first ++ middle, after, (List.append_assoc _ _ _).symm, List.mem_append_left _ ha,
    fun entry hentry => ⟨fun hkey => ?_, fun hkey => ?_⟩⟩
  · rw [List.map_append] at hkeys
    refine (List.nodup_append.mp hkeys).2.2 _ (List.mem_map_of_mem ha) _ ?_ hkey.symm
    exact List.mem_map_of_mem (List.mem_append_right _ (List.mem_cons_of_mem _ hentry))
  · rw [← List.append_assoc, List.map_append, List.map_cons] at hkeys
    exact (List.nodup_cons.mp (List.nodup_append.mp hkeys).2.1).1
      (List.mem_map.mpr ⟨entry, hentry, hkey⟩)

/-- The later of the two keys decides. -/
theorem direction_of_pair (hkeys : (entries.map Prod.fst).Nodup) {mode direction : Text}
    (hmode : mode ≠ []) (hdirection : direction ≠ []) :
    (Precedes entries (str "sort", mode) (str "sort_direction", direction) →
      (applySettings entries {}).sortDirection =
        parseSortDirection direction (defaultSortDirection (parseSortMode mode .cpu))) ∧
    (Precedes entries (str "sort_direction", direction) (str "sort", mode) →
      (applySettings entries {}).sortDirection =
        defaultSortDirection (parseSortMode mode .cpu)) := by
  have hne : ¬ (str "sort_direction" = str "sort") := by rw [str_inj]; decide
  constructor
  · intro h
    rw [direction_foldl hkeys, sort_of_mem hkeys h.mem.1 hmode]
    obtain ⟨before, after, rfl, hsort, hafter⟩ := precedes_split h hkeys
    obtain ⟨first, middle, rfl⟩ := List.append_of_mem hsort
    have hstep : ∀ z, directionStep (parseSortMode mode .cpu) z
        (str "sort_direction", direction) = parseSortDirection direction z := fun z => by
      unfold directionStep
      rw [if_neg fun h => hne h.1, if_pos ⟨rfl, hdirection⟩]
    rw [List.map_append] at hkeys
    obtain ⟨hfirst, -, hdisjoint⟩ := List.nodup_append.mp hkeys
    have hmiddle : ∀ entry ∈ middle, entry.1 ≠ str "sort_direction" := fun entry hentry =>
      hdisjoint _ (List.mem_map_of_mem (List.mem_append_right _ (List.mem_cons_of_mem _ hentry))) _
        List.mem_cons_self
    rw [List.foldl_append, direction_after_sort hfirst hmode hmiddle, List.foldl_cons, hstep]
    exact direction_untouched (fun entry hentry => (hafter entry hentry).1)
      (fun entry hentry => (hafter entry hentry).2) _ _
  · intro h
    rw [direction_foldl hkeys, sort_of_mem hkeys h.mem.2 hmode]
    obtain ⟨before, after, rfl, -, hafter⟩ := precedes_split h hkeys
    exact direction_after_sort hkeys hmode (fun entry hentry => (hafter entry hentry).1) _ _

end Distinct

/-! ## The file -/

theorem loadConfig_joinLines {lines : List Text} (h : ∀ line ∈ lines, '\n' ∉ line) :
    loadConfig (some (joinLines lines)) = applySettings (settings lines) {} := by
  rw [loadConfig_eq, Option.getD_some, getLines_joinLines h, loadLines_settings]

/-- The lines of two settings can be moved to the front. -/
theorem exists_front {lines : List Text} {a b : Text × Text} (hne : a ≠ b)
    (ha : a ∈ settings lines) (hb : b ∈ settings lines) :
    ∃ line line' rest, lines.Perm (line :: line' :: rest) ∧ settingOf (trim line) = some a ∧
      settingOf (trim line') = some b := by
  obtain ⟨line, hline, hsetting⟩ := List.mem_filterMap.mp ha
  obtain ⟨line', hline', hsetting'⟩ := List.mem_filterMap.mp hb
  have hlines : line' ≠ line := fun h => hne (Option.some.inj (hsetting.symm.trans (h ▸ hsetting')))
  have hrest : line' ∈ lines.erase line := (List.mem_erase_of_ne hlines).mpr hline'
  refine ⟨line, line', (lines.erase line).erase line', ?_, hsetting, hsetting'⟩
  exact (List.perm_cons_erase hline).trans ((List.perm_cons_erase hrest).cons line)

/-- Lines with distinct keys load to the same settings in every order, except that the direction
depends on the order exactly where it is contested, and there the later line decides. -/
theorem config_order {lines : List Text} (hnewline : ∀ line ∈ lines, '\n' ∉ line)
    (hkeys : ((settings lines).map Prod.fst).Nodup) :
    (∀ lines', lines.Perm lines' → (loadConfig (some (joinLines lines'))).undirected =
      (loadConfig (some (joinLines lines))).undirected) ∧
    ((∀ lines', lines.Perm lines' →
      loadConfig (some (joinLines lines')) = loadConfig (some (joinLines lines))) ↔
        ¬ DirectionContested (settings lines)) ∧
    ∀ mode direction, mode ≠ [] → direction ≠ [] →
      (Precedes (settings lines) (str "sort", mode) (str "sort_direction", direction) →
        (loadConfig (some (joinLines lines))).sortDirection =
          parseSortDirection direction (defaultSortDirection (parseSortMode mode .cpu))) ∧
      (Precedes (settings lines) (str "sort_direction", direction) (str "sort", mode) →
        (loadConfig (some (joinLines lines))).sortDirection =
          defaultSortDirection (parseSortMode mode .cpu)) := by
  have hload : ∀ lines', lines.Perm lines' →
      loadConfig (some (joinLines lines')) = applySettings (settings lines') {} :=
    fun lines' hperm => loadConfig_joinLines fun line hline => hnewline line (hperm.mem_iff.mpr hline)
  rw [hload lines (.refl _)]
  refine ⟨fun lines' hperm => ?_, ⟨fun h hcontested => ?_, fun hfree lines' hperm => ?_⟩,
    fun _ _ hmode hdirection => direction_of_pair hkeys hmode hdirection⟩
  · rw [hload lines' hperm]
    exact (applySettings_undirected hkeys (settings_perm hperm) {}).symm
  · obtain ⟨mode, direction, hsort, hmode, hdir, hdirection, hne⟩ := hcontested
    have hdiffer : (str "sort", mode) ≠ (str "sort_direction", direction) := fun heq =>
      absurd (congrArg Prod.fst heq) (by rw [str_inj]; decide)
    obtain ⟨line, line', rest, hperm, hline, hline'⟩ := exists_front hdiffer hsort hdir
    have hperm' := hperm.trans (.swap line' line rest)
    have hsettings : settings (line :: line' :: rest) =
        (str "sort", mode) :: (str "sort_direction", direction) :: settings rest := by
      simp only [settings, List.filterMap_cons, hline, hline']
    have hsettings' : settings (line' :: line :: rest) =
        (str "sort_direction", direction) :: (str "sort", mode) :: settings rest := by
      simp only [settings, List.filterMap_cons, hline, hline']
    have hfront := ((settings_perm hperm).map Prod.fst).nodup_iff.mp hkeys
    have hfront' := ((settings_perm hperm').map Prod.fst).nodup_iff.mp hkeys
    have hlater := (direction_of_pair hfront hmode hdirection).1
      (by rw [hsettings]; exact ((List.nil_sublist _).cons_cons _).cons_cons _)
    have hlater' := (direction_of_pair hfront' hmode hdirection).2
      (by rw [hsettings']; exact ((List.nil_sublist _).cons_cons _).cons_cons _)
    have hsame := (h _ hperm).trans (h _ hperm').symm
    rw [hload _ hperm, hload _ hperm'] at hsame
    exact hne (hlater.symm.trans ((congrArg AppConfig.sortDirection hsame).trans hlater'))
  · rw [hload lines' hperm]
    exact (applySettings_perm hkeys (settings_perm hperm) hfree).symm

/-- The direction of the `sort` line counts only where the `sort_direction` line comes first. -/
theorem config_order_contested :
    ¬ ∀ lines lines' : List Text, (∀ line ∈ lines, '\n' ∉ line) →
      ((settings lines).map Prod.fst).Nodup → lines.Perm lines' →
        loadConfig (some (joinLines lines')) = loadConfig (some (joinLines lines)) := by
  intro h
  have hsame := h [str "sort=cpu", str "sort_direction=asc"]
    [str "sort_direction=asc", str "sort=cpu"] (by decide +kernel) (by decide +kernel) (.swap _ _ _)
  exact absurd (congrArg AppConfig.sortDirection hsame) (by decide +kernel)

/-- A name sorted upwards agrees with the default of its mode and is not contested. -/
theorem config_order_agreed :
    loadConfig (some (joinLines [str "sort_direction=asc", str "theme=x", str "sort=name"])) =
      loadConfig (some (joinLines [str "sort=name", str "sort_direction=asc", str "theme=x"])) := by
  refine (config_order (by decide +kernel) (by decide +kernel)).2.1.mpr ?_ _ (by decide +kernel)
  rintro ⟨mode, direction, hsort, -, hdir, -, hne⟩
  have hentries : settings [str "sort=name", str "sort_direction=asc", str "theme=x"] =
      [(str "sort", str "name"), (str "sort_direction", str "asc"), (str "theme", str "x")] := by
    decide +kernel
  have hkeys : ((settings [str "sort=name", str "sort_direction=asc", str "theme=x"]).map
      Prod.fst).Nodup := by decide +kernel
  have hmode : mode = str "name" := congrArg Prod.snd
    (eq_of_key hkeys hsort (b := (str "sort", str "name")) (by rw [hentries]; simp) rfl)
  have hdirection : direction = str "asc" := congrArg Prod.snd
    (eq_of_key hkeys hdir (b := (str "sort_direction", str "asc")) (by rw [hentries]; simp) rfl)
  subst hmode hdirection
  exact hne (by decide +kernel)

end Mtop
