import Mtop.Platform.RootMetricsParser

/-! How a line of the task table comes apart: wide gaps separate fields, a field of several numbers is
split up where the line has too few fields. -/
namespace Mtop
open Cxx
set_option autoImplicit false

/-! ## Trimming -/

/-- A text that ends with something else is trimmed at its start only. -/
theorem trimCopy_eq {text rest : Text} (hdrop : text.dropWhile isTrimmed = rest)
    (hlast : ∀ c ∈ rest.getLast?, isTrimmed c = false) : trimCopy text = rest := by
  unfold trimCopy trim
  rw [hdrop, List.rdropWhile_eq_self_iff]
  intro hne
  rw [hlast _ (List.getLast?_eq_some_getLast hne)]
  exact Bool.false_ne_true

theorem dropWhile_isTrimmed {text : Text} (h : ∀ c ∈ text.head?, isTrimmed c = false) :
    text.dropWhile isTrimmed = text := by
  cases text with
  | nil => rfl
  | cons c text => exact List.dropWhile_cons_of_neg (by simp [h c rfl])

theorem trimCopy_eq_self {text : Text} (hfirst : ∀ c ∈ text.head?, isTrimmed c = false)
    (hlast : ∀ c ∈ text.getLast?, isTrimmed c = false) : trimCopy text = text :=
  trimCopy_eq (dropWhile_isTrimmed hfirst) hlast

theorem trimCopy_last (text : Text) : ∀ c ∈ (trimCopy text).getLast?, isTrimmed c = false := by
  intro c hc
  unfold trimCopy trim at hc
  by_cases hne : (text.dropWhile isTrimmed).rdropWhile isTrimmed = []
  · rw [hne] at hc
    cases hc
  · rw [List.getLast?_eq_some_getLast hne] at hc
    obtain rfl := Option.some.inj hc
    exact Bool.eq_false_of_not_eq_true (List.rdropWhile_last_not isTrimmed _ hne)

theorem trimCopy_first (text : Text) : ∀ c ∈ (trimCopy text).head?, isTrimmed c = false := by
  intro c hc
  have hkept : trimCopy text <+: text.dropWhile isTrimmed := List.rdropWhile_prefix _ _
  have hmem : (text.dropWhile isTrimmed).head? = some c := by
    cases htext : trimCopy text with
    | nil =>
      rw [htext] at hc
      cases hc
    | cons d rest =>
      rw [htext] at hc hkept
      obtain ⟨tail, htail⟩ := hkept
      rw [← htail]
      exact hc
  have hnot := List.head?_dropWhile_not isTrimmed text
  rw [hmem] at hnot
  exact Bool.eq_false_of_not_eq_true (by simpa using hnot)

theorem trimCopy_trimCopy (text : Text) : trimCopy (trimCopy text) = trimCopy text :=
  trimCopy_eq_self (trimCopy_first text) (trimCopy_last text)

/-- One blank at the end is trimmed. -/
theorem trimCopy_blank (text : Text) : trimCopy (text ++ [' ']) = trimCopy text := by
  unfold trimCopy trim
  rw [List.dropWhile_append]
  cases hdrop : text.dropWhile isTrimmed with
  | nil => rfl
  | cons c rest =>
    rw [if_neg (by simp)]
    exact List.rdropWhile_concat_pos isTrimmed (c :: rest) ' ' rfl

/-! ## Wide gaps -/

/-- The fields found so far only grow at the end. -/
theorem foldl_result (result current : List Text) (last : Text) (spaceRun : ℕ) (text : Text) :
    (text.foldl scanChar ⟨result ++ current, last, spaceRun⟩).finish =
      result ++ (text.foldl scanChar ⟨current, last, spaceRun⟩).finish := by
  induction text generalizing current last spaceRun with
  | nil =>
    unfold FieldScan.finish
    by_cases hlast : last = []
    · simp [hlast]
    · simp [hlast]
  | cons c text ih =>
    rw [List.foldl_cons, List.foldl_cons]
    unfold scanChar
    dsimp only
    split_ifs
    · exact ih current last (spaceRun + 1)
    · rw [List.append_assoc]
      exact ih _ [] (spaceRun + 1)
    · exact ih current last (spaceRun + 1)
    · exact ih current _ (spaceRun + 1)
    · exact ih current _ 0

/-- Within a gap, no field is open. -/
theorem foldl_blanks (result : List Text) (spaceRun gap : ℕ) :
    (List.replicate gap ' ').foldl scanChar ⟨result, [], spaceRun⟩ =
      ⟨result, [], spaceRun + gap⟩ := by
  induction gap generalizing spaceRun with
  | zero => rfl
  | succ gap ih =>
    have hstep : scanChar ⟨result, [], spaceRun⟩ ' ' = ⟨result, [], spaceRun + 1⟩ := by
      unfold scanChar
      dsimp only
      rw [if_pos rfl, if_pos rfl, if_pos rfl, ite_self]
    rw [List.replicate_succ, List.foldl_cons, hstep, ih, Nat.add_right_comm, Nat.add_assoc]

/-- A wide gap ends the field before it, as the end of the line does. -/
theorem foldl_gap (s : FieldScan) {gap : ℕ} (h : 2 ≤ gap) :
    (List.replicate gap ' ').foldl scanChar s = ⟨s.finish, [], s.spaceRun + gap⟩ := by
  obtain ⟨result, current, spaceRun⟩ := s
  obtain ⟨gap, rfl⟩ := Nat.exists_eq_add_of_le' h
  unfold FieldScan.finish
  dsimp only
  by_cases hcurrent : current = []
  · rw [hcurrent, if_pos rfl, foldl_blanks]
  rw [if_neg hcurrent, List.replicate_succ, List.foldl_cons]
  by_cases hrun : 2 ≤ spaceRun + 1
  · have hstep : scanChar ⟨result, current, spaceRun⟩ ' ' =
        ⟨result ++ [trimCopy current], [], spaceRun + 1⟩ := by
      unfold scanChar
      dsimp only
      rw [if_pos rfl, if_pos hrun, if_neg hcurrent]
    rw [hstep, foldl_blanks]
    exact congrArg _ (by omega)
  · have hstep : scanChar ⟨result, current, spaceRun⟩ ' ' =
        ⟨result, current ++ [' '], spaceRun + 1⟩ := by
      unfold scanChar
      dsimp only
      rw [if_pos rfl, if_neg hrun, if_neg hcurrent]
    have hstep' : scanChar ⟨result, current ++ [' '], spaceRun + 1⟩ ' ' =
        ⟨result ++ [trimCopy current], [], spaceRun + 1 + 1⟩ := by
      unfold scanChar
      dsimp only
      rw [if_pos rfl, if_pos (by omega), if_neg (by simp), trimCopy_blank]
    rw [hstep, List.replicate_succ, List.foldl_cons, hstep', foldl_blanks]
    exact congrArg _ (by omega)

/-- Whatever stands before a wide gap is split as if it stood alone. -/
theorem splitMultiSpace_gap (before : Text) {gap : ℕ} (h : 2 ≤ gap) (after : Text) :
    splitMultiSpace (before ++ (List.replicate gap ' ' ++ after)) =
      splitMultiSpace before ++
        (after.foldl scanChar ⟨[], [], (before.foldl scanChar {}).spaceRun + gap⟩).finish := by
  unfold splitMultiSpace
  rw [List.foldl_append, List.foldl_append, foldl_gap _ h, ← foldl_result, List.append_nil]

/-- Blanks at the end of a line do not matter. -/
theorem splitMultiSpace_trailing (text : Text) (gap : ℕ) :
    splitMultiSpace (text ++ List.replicate gap ' ') = splitMultiSpace text := by
  have hblank : ∀ s : FieldScan, (scanChar s ' ').finish = s.finish := by
    intro ⟨result, current, spaceRun⟩
    unfold scanChar FieldScan.finish
    dsimp only
    rw [if_pos rfl]
    by_cases hcurrent : current = []
    · simp [hcurrent]
    · simp only [if_neg hcurrent]
      split
      · rfl
      · rw [if_neg (by simp), trimCopy_blank]
  unfold splitMultiSpace
  rw [List.foldl_append]
  generalize text.foldl scanChar {} = s
  induction gap generalizing s with
  | zero => rfl
  | succ gap ih => exact (ih (scanChar s ' ')).trans (hblank s)

/-- Anything but blanks makes a field. -/
theorem finish_foldl_ne_nil {text : Text} {s : FieldScan}
    (h : s.finish ≠ [] ∨ ∃ c ∈ text, c ≠ ' ') : (text.foldl scanChar s).finish ≠ [] := by
  induction text generalizing s with
  | nil => exact h.resolve_right fun ⟨_, hc, _⟩ => absurd hc List.not_mem_nil
  | cons c text ih =>
    refine ih ?_
    by_cases hc : c = ' '
    · refine h.imp (fun hs => ?_) fun ⟨d, hd, hblank⟩ =>
        ⟨d, (List.mem_cons.mp hd).resolve_left fun heq => hblank (heq.trans hc), hblank⟩
      obtain ⟨result, current, spaceRun⟩ := s
      unfold scanChar
      unfold FieldScan.finish at hs ⊢
      dsimp only at hs ⊢
      split_ifs at hs ⊢ <;> simp_all
    · refine .inl ?_
      unfold scanChar FieldScan.finish
      simp [hc]

theorem mem_trimCopy {text : Text} {c : Char} (h : c ∈ text) (hc : isTrimmed c = false) :
    c ∈ trimCopy text := by
  have hdrop : c ∈ text.dropWhile isTrimmed := by
    rw [← List.takeWhile_append_dropWhile (p := isTrimmed) (l := text)] at h
    refine (List.mem_append.mp h).resolve_left fun htake => ?_
    rw [List.mem_takeWhile_imp htake] at hc
    exact Bool.noConfusion hc
  unfold trimCopy trim
  rw [← List.rdropWhile_append_rtakeWhile (p := isTrimmed) (l := text.dropWhile isTrimmed)]
    at hdrop
  refine (List.mem_append.mp hdrop).resolve_right fun htake => ?_
  rw [List.mem_rtakeWhile_imp htake] at hc
  exact Bool.noConfusion hc

/-- A character that stands in the open field or in one before it. -/
def FieldScan.Holds (s : FieldScan) (c : Char) : Prop :=
  c ∈ s.current ∨ ∃ field ∈ s.result, c ∈ field

theorem FieldScan.Holds.finish {s : FieldScan} {c : Char} (h : s.Holds c)
    (hc : isTrimmed c = false) : ∃ field ∈ s.finish, c ∈ field := by
  unfold FieldScan.finish
  rcases h with hin | ⟨field, hfield, hin⟩
  · rw [if_neg (List.ne_nil_of_mem hin)]
    exact ⟨_, List.mem_append_right _ (List.mem_singleton_self _), mem_trimCopy hin hc⟩
  · refine ⟨field, ?_, hin⟩
    split_ifs
    · exact hfield
    · exact List.mem_append_left _ hfield

theorem FieldScan.Holds.scanChar {s : FieldScan} {c : Char} (h : s.Holds c)
    (hc : isTrimmed c = false) (d : Char) : (scanChar s d).Holds c := by
  obtain ⟨result, current, spaceRun⟩ := s
  unfold Mtop.scanChar FieldScan.Holds
  rcases h with hin | ⟨field, hfield, hin⟩
  · have hcurrent : current ≠ [] := List.ne_nil_of_mem hin
    simp only [if_neg hcurrent]
    split_ifs
    · exact .inr ⟨_, List.mem_append_right _ (List.mem_singleton_self _), mem_trimCopy hin hc⟩
    · exact .inl (List.mem_append_left _ hin)
    · exact .inl (List.mem_append_left _ hin)
  · refine .inr ⟨field, ?_, hin⟩
    dsimp only at hfield ⊢
    split_ifs
    · exact hfield
    · exact List.mem_append_left _ hfield
    · exact hfield
    · exact hfield
    · exact hfield

theorem holds_scanChar (s : FieldScan) {c : Char} (hc : c ≠ ' ') : (scanChar s c).Holds c := by
  unfold scanChar
  rw [if_neg hc]
  exact .inl (List.mem_append_right _ (List.mem_singleton_self c))

theorem FieldScan.Holds.foldl {s : FieldScan} {c : Char} (h : s.Holds c)
    (hc : isTrimmed c = false) (text : Text) : (text.foldl Mtop.scanChar s).Holds c := by
  induction text generalizing s with
  | nil => exact h
  | cons d text ih => exact ih (h.scanChar hc d)

/-- No character is lost. -/
theorem mem_splitMultiSpace {text : Text} {c : Char} (h : c ∈ text) (hc : isTrimmed c = false) :
    ∃ field ∈ splitMultiSpace text, c ∈ field := by
  have hblank : c ≠ ' ' := by
    rintro rfl
    cases hc
  obtain ⟨before, after, rfl⟩ := List.append_of_mem h
  unfold splitMultiSpace
  rw [List.foldl_append, List.foldl_cons]
  exact ((holds_scanChar _ hblank).foldl hc after).finish hc

/-- Every field is trimmed. -/
theorem splitMultiSpace_trimmed (line : Text) :
    ∀ field ∈ splitMultiSpace line, trimCopy field = field := by
  have hscan : ∀ (text : Text) (s : FieldScan), (∀ field ∈ s.result, trimCopy field = field) →
      ∀ field ∈ (text.foldl scanChar s).finish, trimCopy field = field := by
    intro text
    induction text with
    | nil =>
      intro s hs field hfield
      unfold FieldScan.finish at hfield
      split at hfield
      · exact hs field hfield
      · rcases List.mem_append.mp hfield with hold | hnew
        · exact hs field hold
        · rw [List.mem_singleton.mp hnew]
          exact trimCopy_trimCopy _
    | cons c text ih =>
      intro s hs
      refine ih (scanChar s c) fun field hfield => ?_
      unfold scanChar at hfield
      split_ifs at hfield
      · exact hs field hfield
      · rcases List.mem_append.mp hfield with hold | hnew
        · exact hs field hold
        · rw [List.mem_singleton.mp hnew]
          exact trimCopy_trimCopy _
      · exact hs field hfield
      · exact hs field hfield
      · exact hs field hfield
  exact hscan line {} fun field h => absurd h List.not_mem_nil

/-! ## Printed fields -/

/-- A field as it is printed: it is not empty, has no two blanks in a row and nothing to trim. -/
structure IsField (text : Text) : Prop where
  ne : text ≠ []
  single : text.IsChain fun a b => ¬ (a = ' ' ∧ b = ' ')
  first : ∀ c ∈ text.head?, isTrimmed c = false
  last : ∀ c ∈ text.getLast?, isTrimmed c = false

theorem all_not_isTrimmed (c? : Option Char) :
    c?.all (fun c => !isTrimmed c) = true ↔ ∀ c ∈ c?, isTrimmed c = false := by
  cases c? <;> simp

instance (text : Text) : Decidable (IsField text) :=
  decidable_of_iff (text ≠ [] ∧ text.IsChain (fun a b => ¬ (a = ' ' ∧ b = ' ')) ∧
      text.head?.all (fun c => !isTrimmed c) = true ∧
      text.getLast?.all (fun c => !isTrimmed c) = true)
    ⟨fun ⟨ne, single, first, last⟩ =>
      ⟨ne, single, (all_not_isTrimmed _).mp first, (all_not_isTrimmed _).mp last⟩,
      fun h => ⟨h.ne, h.single, (all_not_isTrimmed _).mpr h.first, (all_not_isTrimmed _).mpr h.last⟩⟩

/-- Fields with one blank between them. -/
def joinWords (parts : List Text) : Text := [' '].intercalate parts

@[simp] theorem joinWords_singleton (part : Text) : joinWords [part] = part := by
  simp [joinWords, List.intercalate]

theorem joinWords_cons (part : Text) {parts : List Text} (h : parts ≠ []) :
    joinWords (part :: parts) = part ++ ' ' :: joinWords parts := by
  obtain ⟨next, rest, rfl⟩ := List.exists_cons_of_ne_nil h
  simp [joinWords, List.intercalate]

theorem joinWords_concat {parts : List Text} (h : parts ≠ []) (part : Text) :
    joinWords (parts ++ [part]) = joinWords parts ++ ' ' :: part := by
  induction parts with
  | nil => exact absurd rfl h
  | cons first parts ih =>
    cases parts with
    | nil =>
      rw [List.cons_append, List.nil_append, joinWords_cons first (List.cons_ne_nil _ _),
        joinWords_singleton, joinWords_singleton]
    | cons next parts =>
      have hne : next :: parts ≠ [] := List.cons_ne_nil _ _
      rw [List.cons_append, joinWords_cons first (by simp), ih hne, joinWords_cons first hne,
        List.append_assoc, List.cons_append]

theorem mem_joinWords {parts : List Text} {c : Char} (h : c ∈ joinWords parts) :
    c = ' ' ∨ ∃ part ∈ parts, c ∈ part := by
  induction parts with
  | nil => cases h
  | cons part parts ih =>
    by_cases hne : parts = []
    · rw [hne, joinWords_singleton] at h
      exact .inr ⟨part, List.mem_cons_self, h⟩
    · rw [joinWords_cons part hne] at h
      rcases List.mem_append.mp h with hpart | hrest
      · exact .inr ⟨part, List.mem_cons_self, hpart⟩
      · rcases List.mem_cons.mp hrest with hblank | hrest
        · exact .inl hblank
        · exact (ih hrest).imp_right fun ⟨other, hother, hin⟩ =>
            ⟨other, List.mem_cons_of_mem part hother, hin⟩

theorem IsField.trimCopy_eq {text : Text} (h : IsField text) : trimCopy text = text :=
  trimCopy_eq_self h.first h.last

theorem IsField.joinWords {parts : List Text} (hne : parts ≠ []) (h : ∀ part ∈ parts, IsField part) :
    IsField (joinWords parts) := by
  induction parts with
  | nil => exact absurd rfl hne
  | cons part parts ih =>
    have hpart := h part List.mem_cons_self
    cases parts with
    | nil =>
      rw [joinWords_singleton]
      exact hpart
    | cons next parts =>
      have hrest := ih (List.cons_ne_nil _ _) fun other hother =>
        h other (List.mem_cons_of_mem part hother)
      rw [joinWords_cons part (List.cons_ne_nil next parts)]
      refine ⟨by simp, ?_, ?_, ?_⟩
      · refine List.isChain_append.mpr ⟨hpart.single, ?_, fun a ha b hb => ?_⟩
        · refine List.isChain_cons.mpr ⟨fun b hb hblank => ?_, hrest.single⟩
          have hnot := hrest.first b hb
          rw [hblank.2] at hnot
          exact Bool.noConfusion hnot
        · intro hblank
          have hnot := hpart.last a ha
          rw [hblank.1] at hnot
          exact Bool.noConfusion hnot
      · intro c hc
        rw [List.head?_append_of_ne_nil _ hpart.ne] at hc
        exact hpart.first c hc
      · intro c hc
        rw [List.getLast?_append_of_ne_nil _ (List.cons_ne_nil _ _),
          List.getLast?_cons_of_ne_nil hrest.ne] at hc
        exact hrest.last c hc

/-- A text without wide gaps is taken over as it stands. -/
theorem foldl_single (result : List Text) {text : Text} (hne : text ≠ [])
    (hsingle : text.IsChain fun a b => ¬ (a = ' ' ∧ b = ' ')) (hlast : text.getLast? ≠ some ' ')
    (current : Text) (spaceRun : ℕ)
    (hhead : text.head? = some ' ' → spaceRun = 0 ∧ current ≠ []) :
    text.foldl scanChar ⟨result, current, spaceRun⟩ = ⟨result, current ++ text, 0⟩ := by
  induction text generalizing current spaceRun with
  | nil => exact absurd rfl hne
  | cons c text ih =>
    have hstep : ∃ spaceRun', scanChar ⟨result, current, spaceRun⟩ c =
        ⟨result, current ++ [c], spaceRun'⟩ ∧ (c ≠ ' ' → spaceRun' = 0) := by
      unfold scanChar
      dsimp only
      by_cases hc : c = ' '
      · obtain ⟨rfl, hcurrent⟩ := hhead (congrArg some hc)
        exact ⟨1, by rw [if_pos hc, if_neg (by omega), if_neg hcurrent], fun h => absurd hc h⟩
      · exact ⟨0, by rw [if_neg hc], fun _ => rfl⟩
    obtain ⟨spaceRun', hstep, hrun⟩ := hstep
    rw [List.foldl_cons, hstep]
    cases text with
    | nil =>
      rw [hrun fun hc => hlast (by rw [hc]; rfl)]
      rfl
    | cons d text =>
      have hnext := List.isChain_cons_cons.mp hsingle
      rw [List.getLast?_cons_cons] at hlast
      refine (ih (List.cons_ne_nil d text) hnext.2 hlast _ _ fun hd => ?_).trans ?_
      · exact ⟨hrun fun hc => hnext.1 ⟨hc, Option.some.inj hd⟩, by simp⟩
      · rw [List.append_assoc, List.singleton_append]

theorem foldl_field {text : Text} (h : IsField text) (result : List Text) (current : Text)
    (spaceRun : ℕ) :
    text.foldl scanChar ⟨result, current, spaceRun⟩ = ⟨result, current ++ text, 0⟩ := by
  refine foldl_single result h.ne h.single (fun hlast => ?_) current spaceRun fun hhead => ?_
  · exact absurd (h.last ' ' hlast) (by decide)
  · exact absurd (h.first ' ' hhead) (by decide)

/-! ## Printed lines -/

/-- The cells of a line behind its first field, each with the width of the gap before it. -/
def spaced (cells : List (ℕ × Text)) : Text :=
  cells.flatMap fun cell => List.replicate cell.1 ' ' ++ cell.2

/-- Cells with one blank between them run together. -/
def groupCells : List Text → List (ℕ × Text) → List (List Text)
  | group, [] => [group]
  | group, (gap, cell) :: cells =>
    if gap = 1 then groupCells (group ++ [cell]) cells else group :: groupCells [cell] cells

theorem groupCells_flatten (group : List Text) (cells : List (ℕ × Text)) :
    (groupCells group cells).flatten = group ++ cells.map Prod.snd := by
  induction cells generalizing group with
  | nil => simp [groupCells]
  | cons cell cells ih =>
    unfold groupCells
    split
    · rw [ih, List.append_assoc]
      rfl
    · rw [List.flatten_cons, ih]
      rfl

theorem mem_groupCells {group : List Text} {cells : List (ℕ × Text)} (hgroup : group ≠ []) :
    ∀ part ∈ groupCells group cells, part ≠ [] := by
  induction cells generalizing group with
  | nil =>
    intro part hpart
    rw [List.mem_singleton.mp hpart]
    exact hgroup
  | cons cell cells ih =>
    intro part hpart
    unfold groupCells at hpart
    split at hpart
    · exact ih (by simp) part hpart
    · rcases List.mem_cons.mp hpart with rfl | hrest
      · exact hgroup
      · exact ih (List.cons_ne_nil _ _) part hrest

/-- The groups of cells are what is split off. -/
theorem foldl_spaced {group : List Text} {cells : List (ℕ × Text)} (hne : group ≠ [])
    (hgroup : ∀ part ∈ group, IsField part) (hcells : ∀ cell ∈ cells, 1 ≤ cell.1 ∧ IsField cell.2) :
    ((spaced cells).foldl scanChar ⟨[], joinWords group, 0⟩).finish =
      (groupCells group cells).map joinWords := by
  induction cells generalizing group with
  | nil =>
    have hfield := IsField.joinWords hne hgroup
    show FieldScan.finish ⟨[], joinWords group, 0⟩ = [joinWords group]
    unfold FieldScan.finish
    dsimp only
    rw [if_neg hfield.ne, hfield.trimCopy_eq, List.nil_append]
  | cons cell cells ih =>
    obtain ⟨gap, cell⟩ := cell
    obtain ⟨hgap, hcell⟩ := hcells _ List.mem_cons_self
    have hrest : ∀ cell ∈ cells, 1 ≤ cell.1 ∧ IsField cell.2 := fun other hother =>
      hcells other (List.mem_cons_of_mem _ hother)
    have hfield := IsField.joinWords hne hgroup
    have hline : spaced ((gap, cell) :: cells) = List.replicate gap ' ' ++ (cell ++ spaced cells) := by
      simp [spaced]
    rw [hline, List.foldl_append, List.foldl_append]
    unfold groupCells
    by_cases hone : gap = 1
    · have hstep : (List.replicate gap ' ').foldl scanChar ⟨[], joinWords group, 0⟩ =
          ⟨[], joinWords group ++ [' '], 1⟩ := by
        subst hone
        show scanChar ⟨[], joinWords group, 0⟩ ' ' = _
        unfold scanChar
        dsimp only
        rw [if_pos rfl, if_neg (by decide), if_neg hfield.ne]
      rw [if_pos hone, hstep, foldl_field hcell, List.append_assoc, List.singleton_append,
        ← joinWords_concat hne]
      exact ih (by simp) (fun part hpart => (List.mem_append.mp hpart).elim (hgroup part)
        fun hpart => List.mem_singleton.mp hpart ▸ hcell) hrest
    · have hfinish : FieldScan.finish ⟨[], joinWords group, 0⟩ = [joinWords group] := by
        unfold FieldScan.finish
        dsimp only
        rw [if_neg hfield.ne, hfield.trimCopy_eq, List.nil_append]
      rw [if_neg hone, foldl_gap _ (by omega), foldl_field hcell, hfinish, List.nil_append,
        ← List.append_nil [joinWords group], foldl_result, List.map_cons]
      have hnext := ih (List.cons_ne_nil cell [])
        (fun part hpart => List.mem_singleton.mp hpart ▸ hcell) hrest
      rw [joinWords_singleton] at hnext
      rw [hnext]
      rfl

theorem spaced_cons (gap : ℕ) (cell : Text) (cells : List (ℕ × Text)) :
    spaced ((gap, cell) :: cells) = List.replicate gap ' ' ++ (cell ++ spaced cells) := by
  simp [spaced]

/-- Whatever starts a line, its cells are split into their groups. -/
theorem splitMultiSpace_spaced (start : Text) {gap : ℕ} {cell : Text} {cells : List (ℕ × Text)}
    (hgap : 2 ≤ gap) (hcell : IsField cell)
    (hcells : ∀ cell ∈ cells, 1 ≤ cell.1 ∧ IsField cell.2) :
    splitMultiSpace (start ++ spaced ((gap, cell) :: cells)) =
      splitMultiSpace start ++ (groupCells [cell] cells).map joinWords := by
  have hgroups := foldl_spaced (List.cons_ne_nil cell [])
    (fun part hpart => List.mem_singleton.mp hpart ▸ hcell) hcells
  rw [joinWords_singleton] at hgroups
  rw [spaced_cons, splitMultiSpace_gap start hgap, List.foldl_append, foldl_field hcell,
    List.nil_append, hgroups]

/-- A line that starts with a cell. -/
theorem splitMultiSpace_cells {cell : Text} {cells : List (ℕ × Text)} (hcell : IsField cell)
    (hcells : ∀ cell ∈ cells, 1 ≤ cell.1 ∧ IsField cell.2) :
    splitMultiSpace (cell ++ spaced cells) = (groupCells [cell] cells).map joinWords := by
  have hgroups := foldl_spaced (List.cons_ne_nil cell [])
    (fun part hpart => List.mem_singleton.mp hpart ▸ hcell) hcells
  rw [joinWords_singleton] at hgroups
  unfold splitMultiSpace
  rw [List.foldl_append, foldl_field hcell, List.nil_append, hgroups]

theorem IsField.splitMultiSpace_eq {text : Text} (h : IsField text) :
    splitMultiSpace text = [text] := by
  have hcells := splitMultiSpace_cells h fun cell hmem => absurd hmem List.not_mem_nil
  rw [show spaced [] = [] from rfl, List.append_nil] at hcells
  rw [hcells]
  exact congrArg (fun part => [part]) (joinWords_singleton text)

/-- With wide gaps only, every cell stands alone. -/
theorem groupCells_wide (group : List Text) {cells : List (ℕ × Text)}
    (h : ∀ cell ∈ cells, cell.1 ≠ 1) :
    groupCells group cells = group :: cells.map fun cell => [cell.2] := by
  induction cells generalizing group with
  | nil => rfl
  | cons cell cells ih =>
    have hrest := ih [cell.2] fun other hother => h other (List.mem_cons_of_mem _ hother)
    unfold groupCells
    rw [if_neg (h cell List.mem_cons_self), hrest]
    rfl

/-! ## Words -/

/-- A word is not empty and has no white space. -/
def IsWord (part : Text) : Prop := part ≠ [] ∧ ∀ c ∈ part, isSpace c = false

instance (part : Text) : Decidable (IsWord part) :=
  decidable_of_iff (part ≠ [] ∧ part.all (fun c => !isSpace c) = true) (by simp [IsWord])

theorem isTrimmed_of_isSpace {c : Char} (h : isSpace c = false) : isTrimmed c = false := by
  unfold isSpace at h
  unfold isTrimmed
  simp only [Bool.or_eq_false_iff] at h ⊢
  exact ⟨⟨⟨h.1.1.1.1.1, h.1.1.1.1.2⟩, h.2⟩, h.1.1.1.2⟩

theorem IsWord.isField {part : Text} (h : IsWord part) : IsField part where
  ne := h.1
  single := by
    refine List.Pairwise.isChain (List.pairwise_of_forall_mem_list fun a ha b _ hblank => ?_)
    have hspace := h.2 a ha
    rw [hblank.1] at hspace
    exact Bool.noConfusion hspace
  first c hc := isTrimmed_of_isSpace (h.2 c (List.mem_of_mem_head? hc))
  last c hc := isTrimmed_of_isSpace (h.2 c (List.mem_of_mem_getLast? hc))

theorem words_word {part : Text} (h : IsWord part) : words part = [part] := by
  unfold words
  rw [List.splitOnP_eq_singleton h.2]
  exact List.filter_cons_of_pos (by simpa using h.1)

/-- Words with blanks between them are read back. -/
theorem words_joinWords {parts : List Text} (h : ∀ part ∈ parts, IsWord part) :
    words (joinWords parts) = parts := by
  induction parts with
  | nil => rfl
  | cons part parts ih =>
    have hpart := h part List.mem_cons_self
    have hparts : ∀ other ∈ parts, IsWord other := fun other hother =>
      h other (List.mem_cons_of_mem part hother)
    by_cases hne : parts = []
    · rw [hne, joinWords_singleton, words_word hpart]
    · have hrest := ih hparts
      unfold words at hrest ⊢
      rw [joinWords_cons part hne,
        List.splitOnP_append_cons_of_forall_mem hpart.2 ' ' rfl, List.filter_cons_of_pos, hrest]
      simpa using hpart.1

theorem mem_splitOnP {p : Char → Bool} {text part : Text} (h : part ∈ text.splitOnP p) :
    ∀ c ∈ part, p c = false := by
  induction text generalizing part with
  | nil =>
    intro c hc
    rw [List.splitOnP_nil] at h
    rw [List.mem_singleton.mp h] at hc
    exact absurd hc List.not_mem_nil
  | cons d text ih =>
    intro c hc
    rw [List.splitOnP_cons_eq_if_modifyHead] at h
    split_ifs at h with hd
    · rcases List.mem_cons.mp h with rfl | hrest
      · exact absurd hc List.not_mem_nil
      · exact ih hrest c hc
    · obtain ⟨first, rest, hsplit⟩ := List.exists_cons_of_ne_nil (List.splitOnP_ne_nil p text)
      rw [hsplit, List.modifyHead_cons] at h
      rw [hsplit] at ih
      rcases List.mem_cons.mp h with rfl | hrest
      · rcases List.mem_cons.mp hc with rfl | hc
        · exact Bool.eq_false_of_not_eq_true hd
        · exact ih List.mem_cons_self c hc
      · exact ih (List.mem_cons_of_mem first hrest) c hc

theorem mem_words {text part : Text} (h : part ∈ words text) : IsWord part := by
  obtain ⟨hpart, hne⟩ := List.mem_filter.mp h
  exact ⟨by simpa using hne, mem_splitOnP hpart⟩

/-- A number of a row: a word that counts as a number. -/
structure IsNumeral (token : Text) : Prop where
  numeric : isNumericField token = true
  solid : ∀ c ∈ token, isSpace c = false

instance (token : Text) : Decidable (IsNumeral token) :=
  decidable_of_iff (isNumericField token = true ∧ token.all (fun c => !isSpace c) = true)
    ⟨fun ⟨numeric, solid⟩ => ⟨numeric, by simpa using solid⟩,
      fun h => ⟨h.numeric, by simpa using h.solid⟩⟩

theorem IsNumeral.isWord {token : Text} (h : IsNumeral token) : IsWord token := by
  refine ⟨?_, h.solid⟩
  rintro rfl
  exact absurd h.numeric (by decide)

theorem splitNumericSubfields_word {part : Text} (h : IsWord part) :
    splitNumericSubfields part = [] := by
  unfold splitNumericSubfields
  rw [words_word h]
  simp

theorem splitNumericSubfields_joinWords {parts : List Text} (h : ∀ part ∈ parts, IsNumeral part) :
    splitNumericSubfields (joinWords parts) = if 2 ≤ parts.length then parts else [] := by
  unfold splitNumericSubfields
  rw [words_joinWords fun part hpart => (h part hpart).isWord]
  have hall : parts.all isNumericField = true :=
    List.all_eq_true.mpr fun part hpart => (h part hpart).numeric
  simp [hall]

/-! ## Splitting up -/

/-- What a field is split up into in the end. -/
def fieldParts (field : Text) : List Text :=
  if splitNumericSubfields field = [] then [field] else splitNumericSubfields field

theorem fieldParts_ne_nil (field : Text) : fieldParts field ≠ [] := by
  unfold fieldParts
  split_ifs with h
  · exact List.cons_ne_nil _ _
  · exact h

theorem fieldParts_eq {field : Text} (h : splitNumericSubfields field = []) :
    fieldParts field = [field] := if_pos h

theorem fieldParts_joinWords {parts : List Text} (hne : parts ≠ [])
    (h : ∀ part ∈ parts, IsNumeral part) : fieldParts (joinWords parts) = parts := by
  unfold fieldParts
  rw [splitNumericSubfields_joinWords h]
  by_cases htwo : 2 ≤ parts.length
  · rw [if_pos htwo, if_neg hne]
  · have hpos := List.length_pos_iff.mpr hne
    have hone : parts.length = 1 := by omega
    obtain ⟨part, rfl⟩ := List.length_eq_one_iff.mp hone
    rw [if_neg htwo, if_pos rfl, joinWords_singleton]

/-- The parts of a field are not split again. -/
theorem splitNumericSubfields_part {field part : Text} (h : part ∈ splitNumericSubfields field) :
    splitNumericSubfields part = [] := by
  refine splitNumericSubfields_word ?_
  unfold splitNumericSubfields at h
  dsimp only at h
  split_ifs at h
  · exact mem_words h
  · exact absurd h List.not_mem_nil

theorem two_le_splitNumericSubfields {field : Text} (h : splitNumericSubfields field ≠ []) :
    2 ≤ (splitNumericSubfields field).length := by
  unfold splitNumericSubfields at h ⊢
  dsimp only at h ⊢
  split_ifs at h ⊢ with hparts
  · exact of_decide_eq_true (Bool.and_eq_true_iff.mp hparts).2
  · exact absurd rfl h

/-- All fields split up. -/
def allParts (fields : List Text) : List Text := fields.flatMap fieldParts

theorem allParts_append (fields tail : List Text) :
    allParts (fields ++ tail) = allParts fields ++ allParts tail := List.flatMap_append

theorem allParts_cons (field : Text) (fields : List Text) :
    allParts (field :: fields) = fieldParts field ++ allParts fields := rfl

theorem allParts_eq_self {fields : List Text}
    (h : ∀ field ∈ fields, splitNumericSubfields field = []) : allParts fields = fields := by
  induction fields with
  | nil => rfl
  | cons field fields ih =>
    rw [allParts_cons, fieldParts_eq (h field List.mem_cons_self),
      ih fun other hother => h other (List.mem_cons_of_mem field hother)]
    rfl

/-- Numbers that run together are told apart. -/
theorem allParts_groups {groups : List (List Text)} (hne : ∀ group ∈ groups, group ≠ [])
    (h : ∀ group ∈ groups, ∀ part ∈ group, IsNumeral part) :
    allParts (groups.map joinWords) = groups.flatten := by
  induction groups with
  | nil => rfl
  | cons group groups ih =>
    have hrest := ih (fun other hother => hne other (List.mem_cons_of_mem group hother))
      fun other hother => h other (List.mem_cons_of_mem group hother)
    rw [List.map_cons, allParts_cons, List.flatten_cons, hrest,
      fieldParts_joinWords (hne group List.mem_cons_self) (h group List.mem_cons_self)]

theorem splitFirst_none {fields : List Text} (h : splitFirst fields = none) :
    allParts fields = fields := by
  induction fields with
  | nil => rfl
  | cons field fields ih =>
    unfold splitFirst at h
    split_ifs at h with hfield
    rw [allParts_cons, fieldParts_eq hfield, ih (Option.map_eq_none_iff.mp h)]
    rfl

/-- One round leaves the parts as they are and adds a field. -/
theorem splitFirst_some {fields next : List Text} (h : splitFirst fields = some next) :
    allParts next = allParts fields ∧ fields.length < next.length := by
  induction fields generalizing next with
  | nil => cases h
  | cons field fields ih =>
    unfold splitFirst at h
    split_ifs at h with hfield
    · obtain ⟨rest, hrest, rfl⟩ := Option.map_eq_some_iff.mp h
      obtain ⟨hparts, hlength⟩ := ih hrest
      exact ⟨by rw [allParts_cons, allParts_cons, hparts], Nat.succ_lt_succ hlength⟩
    · obtain rfl := Option.some.inj h
      have hparts : allParts (splitNumericSubfields field) = fieldParts field := by
        rw [allParts_eq_self fun part hpart => splitNumericSubfields_part hpart]
        exact (if_neg hfield).symm
      have htwo := two_le_splitNumericSubfields hfield
      refine ⟨by rw [allParts_append, hparts, allParts_cons], ?_⟩
      rw [List.length_append, List.length_cons]
      omega

theorem length_le_allParts (fields : List Text) : fields.length ≤ (allParts fields).length := by
  induction fields with
  | nil => exact le_rfl
  | cons field fields ih =>
    have hone := List.length_pos_iff.mpr (fieldParts_ne_nil field)
    rw [allParts_cons, List.length_append, List.length_cons]
    omega

/-- A field is left to split while there are more parts than fields. -/
theorem splitFirst_isSome {fields : List Text} (h : fields.length < (allParts fields).length) :
    ∃ next, splitFirst fields = some next := by
  cases hfirst : splitFirst fields with
  | none =>
    rw [splitFirst_none hfirst] at h
    exact absurd h (lt_irrefl _)
  | some next => exact ⟨next, rfl⟩

theorem allParts_eq_of_length {fields : List Text} (h : (allParts fields).length ≤ fields.length) :
    allParts fields = fields := by
  cases hfirst : splitFirst fields with
  | none => exact splitFirst_none hfirst
  | some next =>
    obtain ⟨hparts, hlength⟩ := splitFirst_some hfirst
    have hnext := length_le_allParts next
    rw [hparts] at hnext
    omega

/-- The first fields are split before what is behind them. -/
theorem splitFirst_append {fields next : List Text} (h : splitFirst fields = some next)
    (tail : List Text) : splitFirst (fields ++ tail) = some (next ++ tail) := by
  induction fields generalizing next with
  | nil => cases h
  | cons field fields ih =>
    unfold splitFirst at h
    rw [List.cons_append]
    unfold splitFirst
    split_ifs at h ⊢ with hfield
    · obtain ⟨rest, hrest, rfl⟩ := Option.map_eq_some_iff.mp h
      rw [ih hrest]
      rfl
    · obtain rfl := Option.some.inj h
      rw [List.append_assoc]

/-- Where the parts of the first fields fill the line, these are split up and no others. -/
theorem splitRounds_total {rounds : ℕ} {fields tail : List Text}
    (h : (allParts fields).length ≤ rounds + fields.length) :
    splitRounds rounds ((allParts fields).length + tail.length) (fields ++ tail) =
      allParts fields ++ tail := by
  induction rounds generalizing fields with
  | zero =>
    rw [allParts_eq_of_length (by omega)]
    rfl
  | succ rounds ih =>
    unfold splitRounds
    rw [List.length_append]
    by_cases hfull : (allParts fields).length ≤ fields.length
    · rw [if_neg (by omega), allParts_eq_of_length hfull]
    · obtain ⟨next, hnext⟩ := splitFirst_isSome (not_le.mp hfull)
      obtain ⟨hparts, hlength⟩ := splitFirst_some hnext
      rw [if_pos (by omega), splitFirst_append hnext, ← hparts]
      exact ih (by rw [hparts]; omega)

theorem splitRounds_none {fields : List Text} (h : splitFirst fields = none)
    (rounds expectedSize : ℕ) : splitRounds rounds expectedSize fields = fields := by
  cases rounds with
  | zero => rfl
  | succ rounds =>
    unfold splitRounds
    rw [h]
    exact ite_self fields

/-- The parts never change. -/
theorem allParts_splitRounds (rounds expectedSize : ℕ) (fields : List Text) :
    allParts (splitRounds rounds expectedSize fields) = allParts fields := by
  induction rounds generalizing fields with
  | zero => rfl
  | succ rounds ih =>
    unfold splitRounds
    split
    · cases hnext : splitFirst fields with
      | none => rfl
      | some next => exact (ih next).trans (splitFirst_some hnext).1
    · rfl

theorem map_trimCopy_splitMultiSpace (line : Text) :
    (splitMultiSpace line).map trimCopy = splitMultiSpace line := by
  rw [List.map_congr_left (splitMultiSpace_trimmed line), List.map_id']

/-- A line of exactly as many parts as columns is split up into them. -/
theorem splitMergedNumericFields_total {line : Text} {fields tail : List Text}
    (h : splitMultiSpace line = fields ++ tail) :
    splitMergedNumericFields (splitMultiSpace line) ((allParts fields).length + tail.length) =
      allParts fields ++ tail := by
  unfold splitMergedNumericFields
  rw [map_trimCopy_splitMultiSpace, h]
  exact splitRounds_total (by omega)

/-- A line of too few parts is not filled up. -/
theorem splitMergedNumericFields_short {line : Text} {expectedSize : ℕ}
    (h : (allParts (splitMultiSpace line)).length < expectedSize) :
    (splitMergedNumericFields (splitMultiSpace line) expectedSize).length ≠ expectedSize := by
  unfold splitMergedNumericFields
  rw [map_trimCopy_splitMultiSpace]
  have hlength := length_le_allParts (splitRounds expectedSize expectedSize (splitMultiSpace line))
  rw [allParts_splitRounds] at hlength
  omega

end Mtop
