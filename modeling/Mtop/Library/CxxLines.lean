import Mtop.Library.CxxString

/-! Text files read by `std::getline` and written back line by line. The two are inverse up to a
final newline. -/
namespace Cxx
set_option autoImplicit false

/-- The lines `std::getline` delivers: a newline ends a line, the end of the text ends the last. -/
def getLines : Text → List Text
  | [] => []
  | c :: rest =>
    if c = '\n' then [] :: getLines rest
    else
      match getLines rest with
      | [] => [[c]]
      | line :: lines => (c :: line) :: lines

/-- `output << line << '\n'` for every line. -/
def joinLines (lines : List Text) : Text := lines.flatMap (· ++ ['\n'])

@[simp] theorem getLines_nil : getLines [] = [] := rfl

@[simp] theorem joinLines_nil : joinLines [] = [] := rfl

@[simp] theorem joinLines_cons (line : Text) (lines : List Text) :
    joinLines (line :: lines) = line ++ '\n' :: joinLines lines := by
  simp [joinLines]

theorem length_joinLines_cons (line : Text) (lines : List Text) :
    (joinLines (line :: lines)).length = (line ++ ['\n']).length + (joinLines lines).length := by
  rw [← List.length_append, joinLines_cons, List.append_cons line]

theorem joinLines_append (before after : List Text) :
    joinLines (before ++ after) = joinLines before ++ joinLines after := List.flatMap_append

/-- A written text ends in a newline. -/
theorem joinLines_eq_concat (line : Text) (lines : List Text) :
    ∃ text, joinLines (line :: lines) = text ++ ['\n'] := by
  induction lines generalizing line with
  | nil => exact ⟨line, joinLines_cons line []⟩
  | cons next lines ih =>
    obtain ⟨text, htext⟩ := ih next
    exact ⟨line ++ '\n' :: text, by rw [joinLines_cons, htext]; simp⟩

theorem getLines_newline (rest : Text) : getLines ('\n' :: rest) = [] :: getLines rest := by
  rw [getLines, if_pos rfl]

theorem getLines_eq_nil_iff {text : Text} : getLines text = [] ↔ text = [] := by
  cases text with
  | nil => simp
  | cons c rest =>
    unfold getLines
    split
    · simp
    · split <;> simp

/-- A line and what is left of the text after its newline. -/
theorem getLines_line {line : Text} (h : '\n' ∉ line) (rest : Text) :
    getLines (line ++ '\n' :: rest) = line :: getLines rest := by
  induction line with
  | nil => exact getLines_newline rest
  | cons c line ih =>
    have hc : c ≠ '\n' := fun hc => h (hc ▸ List.mem_cons_self)
    have htail : '\n' ∉ line := fun hmem => h (List.mem_cons_of_mem _ hmem)
    rw [List.cons_append, getLines, if_neg hc, ih htail]

theorem newline_notMem_getLines (text : Text) : ∀ line ∈ getLines text, '\n' ∉ line := by
  induction text with
  | nil => simp
  | cons c rest ih =>
    intro line hline
    unfold getLines at hline
    split at hline
    · rcases List.mem_cons.mp hline with rfl | hline
      · exact List.not_mem_nil
      · exact ih line hline
    · rename_i hc
      split at hline
      · rw [List.mem_singleton.mp hline]
        exact fun hmem => hc (List.mem_singleton.mp hmem).symm
      · rename_i first lines hlines
        rw [hlines] at ih
        rcases List.mem_cons.mp hline with rfl | hline
        · intro hmem
          rcases List.mem_cons.mp hmem with hmem | hmem
          · exact hc hmem.symm
          · exact ih first List.mem_cons_self hmem
        · exact ih line (List.mem_cons_of_mem _ hline)

/-- What is written line by line is read back as the same lines, whatever follows. -/
theorem getLines_joinLines_append {lines : List Text} (h : ∀ line ∈ lines, '\n' ∉ line)
    (rest : Text) : getLines (joinLines lines ++ rest) = lines ++ getLines rest := by
  induction lines with
  | nil => rfl
  | cons line lines ih =>
    have htail : ∀ l ∈ lines, '\n' ∉ l := fun l hl => h l (List.mem_cons_of_mem _ hl)
    rw [joinLines_cons, List.append_assoc, List.cons_append,
      getLines_line (h line List.mem_cons_self), ih htail, List.cons_append]

theorem getLines_joinLines {lines : List Text} (h : ∀ line ∈ lines, '\n' ∉ line) :
    getLines (joinLines lines) = lines := by
  have hread := getLines_joinLines_append h []
  rwa [List.append_nil, getLines_nil, List.append_nil] at hread

/-- A text without a newline is one line, if it is not empty. -/
theorem getLines_of_notMem {text : Text} (h : '\n' ∉ text) (hne : text ≠ []) :
    getLines text = [text] := by
  induction text with
  | nil => exact absurd rfl hne
  | cons c text ih =>
    have hc : c ≠ '\n' := fun hc => h (hc ▸ List.mem_cons_self)
    rw [getLines, if_neg hc]
    by_cases htext : text = []
    · rw [htext, getLines_nil]
    · rw [ih (fun hmem => h (List.mem_cons_of_mem _ hmem)) htext]

/-- A text is its lines written back, or it lacks only the last newline. -/
theorem joinLines_getLines (text : Text) :
    joinLines (getLines text) = text ∨ joinLines (getLines text) = text ++ ['\n'] := by
  induction text with
  | nil => exact .inl rfl
  | cons c rest ih =>
    by_cases hc : c = '\n'
    · rw [hc, getLines_newline, joinLines_cons]
      exact ih.imp (congrArg ('\n' :: ·)) (congrArg ('\n' :: ·))
    · rw [getLines, if_neg hc]
      cases hrest : getLines rest with
      | nil =>
        rw [getLines_eq_nil_iff.mp hrest]
        exact .inr rfl
      | cons line lines =>
        rw [hrest, joinLines_cons] at ih
        dsimp only
        rw [joinLines_cons]
        exact ih.imp (congrArg (c :: ·)) (congrArg (c :: ·))

/-- One text begins another inside the lines: the first lines are the same. -/
theorem line_prefix_iff {line line' : Text} (h : '\n' ∉ line) (h' : '\n' ∉ line')
    {rest rest' : Text} :
    line ++ '\n' :: rest <+: line' ++ '\n' :: rest' ↔ line = line' ∧ rest <+: rest' := by
  induction line generalizing line' with
  | nil =>
    cases line' with
    | nil => simp
    | cons d line' =>
      have hd : '\n' ≠ d := fun hd => h' (hd ▸ List.mem_cons_self)
      simp [List.cons_prefix_cons, hd]
  | cons c line ih =>
    have hc : c ≠ '\n' := fun hc => h (hc ▸ List.mem_cons_self)
    have htail : '\n' ∉ line := fun hmem => h (List.mem_cons_of_mem _ hmem)
    cases line' with
    | nil => simp [List.cons_prefix_cons, hc]
    | cons d line' =>
      have htail' : '\n' ∉ line' := fun hmem => h' (List.mem_cons_of_mem _ hmem)
      simp [List.cons_prefix_cons, ih htail htail', and_assoc]

/-- A written text that begins another has its first lines. -/
theorem joinLines_prefix {lines lines' : List Text} (h : ∀ line ∈ lines, '\n' ∉ line)
    (h' : ∀ line ∈ lines', '\n' ∉ line) (hstart : joinLines lines <+: joinLines lines') :
    lines <+: lines' := by
  induction lines generalizing lines' with
  | nil => exact List.nil_prefix
  | cons line lines ih =>
    obtain ⟨hline, hlines⟩ := List.forall_mem_cons.mp h
    cases lines' with
    | nil =>
      rw [joinLines_cons, joinLines_nil, List.prefix_nil] at hstart
      exact absurd hstart (List.append_ne_nil_of_right_ne_nil _ (List.cons_ne_nil _ _))
    | cons line' lines' =>
      obtain ⟨hline', hlines'⟩ := List.forall_mem_cons.mp h'
      rw [joinLines_cons, joinLines_cons, line_prefix_iff hline hline'] at hstart
      rw [hstart.1]
      exact List.cons_prefix_cons.mpr ⟨rfl, ih hlines hlines' hstart.2⟩

/-- A line that is not ended yet begins what it is a part of. -/
theorem open_line_prefix_iff {line line' : Text} (h : '\n' ∉ line) (rest : Text) :
    line <+: line' ++ '\n' :: rest ↔ line <+: line' :=
  prefix_append_cons_iff h rest

end Cxx
