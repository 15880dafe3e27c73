import Mtop.ConfigFile

/-! What `persist_view_profile` leaves in the settings file: the profile that is read back, the
other settings, and the content after a failure. -/
namespace Mtop
open Cxx
set_option autoImplicit false

/-! ## The two scanners -/

/-- The key and the value of a trimmed line that is neither blank nor a comment. -/
def settingOf (line : Text) : Option (Text × Text) :=
  if line = [] ∨ line.head? = some '#' then none
  else (line.idxOf? '=').map fun eq => (trim (line.take eq), trim (line.drop (eq + 1)))

theorem parseLine_eq (line : Text) (config : AppConfig) :
    parseLine line config =
      match settingOf line with
      | none => config
      | some (key, value) => setValue key value config := by
  unfold parseLine settingOf
  split
  · rfl
  · cases line.idxOf? '=' <;> rfl

theorem isViewProfileLine_iff {line : Text} :
    isViewProfileLine line = true ↔
      ∃ value, settingOf (trim line) = some (str "view_profile", value) := by
  unfold isViewProfileLine settingOf
  dsimp only
  split
  · simp only [Bool.false_eq_true, reduceCtorEq, exists_const]
  · cases (trim line).idxOf? '=' with
    | none => simp only [Bool.false_eq_true, Option.map_none, reduceCtorEq, exists_const]
    | some eq =>
      simp only [decide_eq_true_eq, Option.map_some, Option.some.injEq, Prod.mk.injEq,
        exists_and_left, exists_eq', and_true]

/-- The profile that the loader takes from a line. -/
def lineProfile (line : Text) : Option ViewProfile :=
  match settingOf (trim line) with
  | none => none
  | some (key, value) =>
    if key = str "view_profile" ∧ value ≠ [] then some ((parseViewProfile value).getD .alpha)
    else none

theorem lineProfile_eq_none {line : Text} (h : isViewProfileLine line = false) :
    lineProfile line = none := by
  unfold lineProfile
  cases hsetting : settingOf (trim line) with
  | none => rfl
  | some setting =>
    obtain ⟨key, value⟩ := setting
    refine if_neg fun hkey => ?_
    rw [hkey.1] at hsetting
    rw [isViewProfileLine_iff.mpr ⟨value, hsetting⟩] at h
    cases h

theorem lineProfile_desiredLine (profile : ViewProfile) :
    lineProfile (desiredLine profile) = some profile := by
  cases profile <;> decide +kernel

theorem isViewProfileLine_desiredLine (profile : ViewProfile) :
    isViewProfileLine (desiredLine profile) = true := by
  cases h : isViewProfileLine (desiredLine profile) with
  | true => rfl
  | false => cases (lineProfile_eq_none h).symm.trans (lineProfile_desiredLine profile)

theorem newline_notMem_desiredLine (profile : ViewProfile) : '\n' ∉ desiredLine profile := by
  cases profile <;> simp [desiredLine, viewProfileName]

/-! ## One setting -/

/-- All settings but the profile. -/
def AppConfig.others (config : AppConfig) : AppConfig := { config with viewProfile := .alpha }

theorem others_ite {p : Prop} [Decidable p] {a b a' b' : AppConfig} (ha : a.others = a'.others)
    (hb : b.others = b'.others) :
    (if p then a else b).others = (if p then a' else b').others := by
  split
  · exact ha
  · exact hb

theorem setValue_others (key value : Text) (config : AppConfig) :
    (setValue key value config).others = (setValue key value config.others).others := by
  unfold setValue
  repeat refine others_ite rfl ?_
  rfl

theorem profile_ite {p : Prop} [Decidable p] {a b : AppConfig} {profile : ViewProfile}
    (ha : a.viewProfile = profile) (hb : b.viewProfile = profile) :
    (if p then a else b).viewProfile = profile := by
  split
  · exact ha
  · exact hb

/-- No other key is tested before the profile's own. -/
theorem setValue_view_profile_eq (value : Text) (config : AppConfig) :
    setValue (str "view_profile") value config =
      if value ≠ [] then { config with viewProfile := (parseViewProfile value).getD .alpha }
      else config := by
  unfold setValue
  simp only [str_inj, String.reduceEq, false_and, if_false, true_and]

theorem setValue_profile (key value : Text) (config : AppConfig) :
    (setValue key value config).viewProfile =
      if key = str "view_profile" ∧ value ≠ [] then (parseViewProfile value).getD .alpha
      else config.viewProfile := by
  by_cases h : key = str "view_profile"
  · subst h
    rw [setValue_view_profile_eq]
    by_cases hvalue : value ≠ []
    · rw [if_pos hvalue, if_pos ⟨rfl, hvalue⟩]
    · rw [if_neg hvalue, if_neg fun hkey => hvalue hkey.2]
  · have hother : ¬ (key = str "view_profile" ∧ value ≠ []) := fun hkey => h hkey.1
    rw [if_neg hother]
    unfold setValue
    rw [if_neg hother]
    repeat refine profile_ite rfl ?_
    rfl

theorem setValue_view_profile (value : Text) (config : AppConfig) :
    (setValue (str "view_profile") value config).others = config.others := by
  rw [setValue_view_profile_eq]
  split <;> rfl

/-! ## A sequence of lines -/

/-- The loop of the loader over lines. -/
def loadLines (lines : List Text) (config : AppConfig) : AppConfig :=
  lines.foldl (fun config line => parseLine (trim line) config) config

theorem loadConfig_eq (file : Option Text) :
    loadConfig file = loadLines (getLines (file.getD [])) {} := rfl

theorem loadLines_append (before after : List Text) (config : AppConfig) :
    loadLines (before ++ after) config = loadLines after (loadLines before config) :=
  List.foldl_append

theorem parseLine_others (line : Text) (config : AppConfig) :
    (parseLine line config).others = (parseLine line config.others).others := by
  rw [parseLine_eq, parseLine_eq]
  cases settingOf line with
  | none => rfl
  | some setting => exact setValue_others setting.1 setting.2 config

theorem loadLines_others (lines : List Text) (config : AppConfig) :
    (loadLines lines config).others = (loadLines lines config.others).others := by
  induction lines generalizing config with
  | nil => rfl
  | cons line lines ih =>
    show (loadLines lines (parseLine (trim line) config)).others =
      (loadLines lines (parseLine (trim line) config.others)).others
    rw [ih, parseLine_others, ← ih]

/-- A `view_profile` line changes no other setting. -/
theorem parseLine_viewProfileLine {line : Text} (h : isViewProfileLine line = true)
    (config : AppConfig) : (parseLine (trim line) config).others = config.others := by
  obtain ⟨value, hsetting⟩ := isViewProfileLine_iff.mp h
  rw [parseLine_eq, hsetting]
  exact setValue_view_profile value config

theorem loadLines_viewProfileLine {line : Text} (h : isViewProfileLine line = true)
    (before after : List Text) (config : AppConfig) :
    (loadLines (before ++ line :: after) config).others =
      (loadLines (before ++ after) config).others := by
  rw [loadLines_append, loadLines_append]
  show (loadLines after (parseLine (trim line) (loadLines before config))).others = _
  rw [loadLines_others, parseLine_viewProfileLine h, ← loadLines_others]

theorem parseLine_profile (line : Text) (config : AppConfig) :
    (parseLine (trim line) config).viewProfile = (lineProfile line).getD config.viewProfile := by
  rw [parseLine_eq]
  unfold lineProfile
  cases settingOf (trim line) with
  | none => rfl
  | some setting =>
    dsimp only
    rw [setValue_profile]
    split <;> rfl

/-- The last line that sets a profile decides. -/
theorem loadLines_profile (lines : List Text) (config : AppConfig) :
    (loadLines lines config).viewProfile =
      ((lines.filterMap lineProfile).getLast?).getD config.viewProfile := by
  induction lines generalizing config with
  | nil => rfl
  | cons line lines ih =>
    show (loadLines lines (parseLine (trim line) config)).viewProfile = _
    rw [ih, parseLine_profile, List.filterMap_cons]
    cases lineProfile line with
    | none => rfl
    | some profile =>
      rw [List.getLast?_cons]
      rfl

/-! ## The rewritten lines -/

theorem replaceLine_of_none {desired : Text} {lines : List Text}
    (h : ∀ line ∈ lines, isViewProfileLine line = false) :
    replaceLine desired lines = (lines, false) := by
  induction lines with
  | nil => rfl
  | cons line lines ih =>
    have hline := h line List.mem_cons_self
    have htail : ∀ l ∈ lines, isViewProfileLine l = false :=
      fun l hl => h l (List.mem_cons_of_mem _ hl)
    simp only [replaceLine, hline, Bool.false_eq_true, if_false, ih htail]

theorem replaceLine_of_first {desired line : Text} {before : List Text} (after : List Text)
    (hbefore : ∀ l ∈ before, isViewProfileLine l = false) (hline : isViewProfileLine line = true) :
    replaceLine desired (before ++ line :: after) = (before ++ desired :: after, true) := by
  induction before with
  | nil => simp only [List.nil_append, replaceLine, hline, if_true]
  | cons first before ih =>
    have hfirst := hbefore first List.mem_cons_self
    have htail : ∀ l ∈ before, isViewProfileLine l = false :=
      fun l hl => hbefore l (List.mem_cons_of_mem _ hl)
    simp only [List.cons_append, replaceLine, hfirst, Bool.false_eq_true, if_false, ih htail]

/-- A file has no `view_profile` line, or a first one. -/
theorem viewProfileLine_split (lines : List Text) :
    (∀ line ∈ lines, isViewProfileLine line = false) ∨
      ∃ before line after, lines = before ++ line :: after ∧
        (∀ l ∈ before, isViewProfileLine l = false) ∧ isViewProfileLine line = true := by
  induction lines with
  | nil => exact .inl fun _ h => absurd h List.not_mem_nil
  | cons first lines ih =>
    cases hfirst : isViewProfileLine first with
    | true => exact .inr ⟨[], first, lines, rfl, fun _ h => absurd h List.not_mem_nil, hfirst⟩
    | false =>
      rcases ih with hnone | ⟨before, line, after, rfl, hbefore, hline⟩
      · exact .inl (List.forall_mem_cons.mpr ⟨hfirst, hnone⟩)
      · exact .inr ⟨first :: before, line, after, rfl,
          List.forall_mem_cons.mpr ⟨hfirst, hbefore⟩, hline⟩

theorem updateLines_of_none (profile : ViewProfile) {lines : List Text}
    (h : ∀ line ∈ lines, isViewProfileLine line = false) :
    updateLines profile lines = lines ++ [desiredLine profile] := by
  unfold updateLines
  rw [replaceLine_of_none h]
  rfl

theorem updateLines_of_first (profile : ViewProfile) {before : List Text} {line : Text}
    (after : List Text) (hbefore : ∀ l ∈ before, isViewProfileLine l = false)
    (hline : isViewProfileLine line = true) :
    updateLines profile (before ++ line :: after) = before ++ desiredLine profile :: after := by
  unfold updateLines
  rw [replaceLine_of_first after hbefore hline]
  rfl

theorem newline_notMem_updateLines (profile : ViewProfile) {lines : List Text}
    (h : ∀ line ∈ lines, '\n' ∉ line) : ∀ line ∈ updateLines profile lines, '\n' ∉ line := by
  have hdesired := newline_notMem_desiredLine profile
  rcases viewProfileLine_split lines with hnone | ⟨before, line, after, rfl, hbefore, hline⟩
  · rw [updateLines_of_none profile hnone]
    intro l hl
    rcases List.mem_append.mp hl with hl | hl
    · exact h l hl
    · rw [List.mem_singleton.mp hl]
      exact hdesired
  · rw [updateLines_of_first profile after hbefore hline]
    intro l hl
    rcases List.mem_append.mp hl with hl | hl
    · exact h l (List.mem_append_left _ hl)
    · rcases List.mem_cons.mp hl with rfl | hl
      · exact hdesired
      · exact h l (List.mem_append_right _ (List.mem_cons_of_mem _ hl))

/-- Rewriting rewritten lines changes nothing. -/
theorem updateLines_updateLines (profile : ViewProfile) (lines : List Text) :
    updateLines profile (updateLines profile lines) = updateLines profile lines := by
  have hdesired := isViewProfileLine_desiredLine profile
  rcases viewProfileLine_split lines with hnone | ⟨before, line, after, rfl, hbefore, hline⟩
  · rw [updateLines_of_none profile hnone]
    exact updateLines_of_first profile [] hnone hdesired
  · rw [updateLines_of_first profile after hbefore hline]
    exact updateLines_of_first profile after hbefore hdesired

/-! ## The lines around the rewritten one -/

def linesBefore (content : Text) : List Text :=
  (getLines content).takeWhile fun line => !isViewProfileLine line

/-- The lines behind the first `view_profile` line. -/
def linesBehind (content : Text) : List Text :=
  ((getLines content).dropWhile fun line => !isViewProfileLine line).drop 1

/-- The lines that are written for a file. -/
def newLines (file : Option Text) (profile : ViewProfile) : List Text :=
  updateLines profile (getLines (file.getD []))

theorem isViewProfileLine_linesBefore {content : Text} :
    ∀ line ∈ linesBefore content, isViewProfileLine line = false := by
  intro line hline
  simpa using List.mem_takeWhile_imp hline

theorem newline_notMem_linesBefore {content : Text} : ∀ line ∈ linesBefore content, '\n' ∉ line :=
  fun line hline => newline_notMem_getLines content line ((List.takeWhile_prefix _).subset hline)

theorem newLines_eq (file : Option Text) (profile : ViewProfile) :
    newLines file profile =
      linesBefore (file.getD []) ++ desiredLine profile :: linesBehind (file.getD []) := by
  unfold newLines linesBefore linesBehind
  rcases viewProfileLine_split (getLines (file.getD [])) with
    hnone | ⟨before, line, after, hlines, hbefore, hline⟩
  · have hnot : ∀ l ∈ getLines (file.getD []), (!isViewProfileLine l) = true :=
      fun l hl => by rw [hnone l hl]; rfl
    rw [updateLines_of_none profile hnone, List.takeWhile_eq_self_iff.mpr hnot,
      List.dropWhile_eq_nil_iff.mpr hnot]
    rfl
  · have hnot : ∀ l ∈ before, (!isViewProfileLine l) = true :=
      fun l hl => by rw [hbefore l hl]; rfl
    have hstop : ¬ (!isViewProfileLine line) = true := by rw [hline]; exact nofun
    rw [hlines, updateLines_of_first profile after hbefore hline,
      List.takeWhile_append_of_pos hnot,
      List.takeWhile_cons_of_neg (p := fun l => !isViewProfileLine l) hstop,
      List.dropWhile_append_of_pos hnot,
      List.dropWhile_cons_of_neg (p := fun l => !isViewProfileLine l) hstop, List.append_nil]
    rfl

theorem newline_notMem_newLines (file : Option Text) (profile : ViewProfile) :
    ∀ line ∈ newLines file profile, '\n' ∉ line :=
  newline_notMem_updateLines profile (newline_notMem_getLines _)

/-- Where the profile stands in the rewritten text: so many bytes in front of its end. -/
def profileEnd (file : Option Text) (profile : ViewProfile) : ℕ :=
  (joinLines (linesBefore (file.getD []))).length + (desiredLine profile).length

/-- How long the rewritten text is. -/
def rewrittenLength (file : Option Text) (profile : ViewProfile) : ℕ :=
  profileEnd file profile + 1 + (joinLines (linesBehind (file.getD []))).length

/-- The rewritten text up to the end of the profile, and the rest. -/
theorem joinLines_newLines (file : Option Text) (profile : ViewProfile) :
    joinLines (newLines file profile) =
      joinLines (linesBefore (file.getD [])) ++ desiredLine profile ++
        '\n' :: joinLines (linesBehind (file.getD [])) := by
  rw [newLines_eq, joinLines_append, joinLines_cons, List.append_assoc]

theorem length_joinLines_newLines (file : Option Text) (profile : ViewProfile) :
    (joinLines (newLines file profile)).length = rewrittenLength file profile := by
  rw [joinLines_newLines]
  unfold rewrittenLength profileEnd
  simp only [List.length_append, List.length_cons]
  omega

/-! ## A text that is cut off -/

theorem idxOf_eq_sign {key : Text} (h : '=' ∉ key) (rest : Text) :
    (key ++ '=' :: rest).idxOf? '=' = some key.length := by
  rw [List.idxOf?_eq_some_iff]
  refine ⟨by simp, by simp, fun i hi heq => h ?_⟩
  rw [List.getElem_append_left hi] at heq
  exact heq ▸ List.getElem_mem hi

theorem eq_sign_split {line : Text} {eq : ℕ} (h : line.idxOf? '=' = some eq) :
    line = line.take eq ++ '=' :: line.drop (eq + 1) ∧ '=' ∉ line.take eq := by
  obtain ⟨hlt, heq, hbefore⟩ := List.idxOf?_eq_some_iff.mp h
  constructor
  · rw [← heq, List.getElem_cons_drop, List.take_append_drop]
  · intro hmem
    obtain ⟨i, hi, hget⟩ := List.mem_iff_getElem.mp hmem
    rw [List.getElem_take] at hget
    exact hbefore i (by rw [List.length_take] at hi; omega) hget

theorem rdropWhile_append_cons {c : Char} (hc : ¬ isTrimmed c = true) (text rest : Text) :
    (text ++ c :: rest).rdropWhile isTrimmed = text ++ c :: rest.rdropWhile isTrimmed := by
  induction rest using List.reverseRecOn with
  | nil => exact List.rdropWhile_concat_neg isTrimmed text c hc
  | append_singleton rest d ih =>
    rw [← List.cons_append, ← List.append_assoc, List.rdropWhile_concat, List.rdropWhile_concat, ih]
    split
    · rfl
    · rw [List.append_assoc, List.cons_append]

theorem trim_append_of_blank {blank : Text} (h : ∀ c ∈ blank, isTrimmed c = true) (text : Text) :
    trim (blank ++ text) = trim text := by
  unfold trim
  rw [List.dropWhile_append_of_pos h]

theorem exists_key_of_isViewProfileLine {line : Text} (h : isViewProfileLine line = true) :
    ∃ key rest, line = key ++ '=' :: rest ∧ '=' ∉ key ∧ trim key = str "view_profile" := by
  have hline : line = line.takeWhile isTrimmed ++
      (trim line ++ (line.dropWhile isTrimmed).rtakeWhile isTrimmed) := by
    unfold trim
    rw [List.rdropWhile_append_rtakeWhile, List.takeWhile_append_dropWhile]
  have hblank : ∀ c ∈ line.takeWhile isTrimmed, isTrimmed c = true :=
    fun c hc => List.mem_takeWhile_imp hc
  unfold isViewProfileLine at h
  dsimp only at h
  split at h
  · cases h
  · cases heq : (trim line).idxOf? '=' with
    | none =>
      rw [heq] at h
      cases h
    | some eq =>
      rw [heq] at h
      obtain ⟨hsplit, hsign⟩ := eq_sign_split heq
      refine ⟨line.takeWhile isTrimmed ++ (trim line).take eq, (trim line).drop (eq + 1) ++
        (line.dropWhile isTrimmed).rtakeWhile isTrimmed, ?_, ?_, ?_⟩
      · rw [List.append_assoc, ← List.cons_append, ← List.append_assoc _ _ (List.rtakeWhile _ _),
          ← hsplit, ← hline]
      · intro hmem
        rcases List.mem_append.mp hmem with hmem | hmem
        · exact absurd (hblank _ hmem) (by decide)
        · exact hsign hmem
      · rw [trim_append_of_blank hblank]
        exact of_decide_eq_true h

/-- Trimming takes nothing from behind the `=` into the key. -/
theorem isViewProfileLine_of_key {key : Text} (rest : Text) (hsign : '=' ∉ key)
    (hname : trim key = str "view_profile") : isViewProfileLine (key ++ '=' :: rest) = true := by
  have hdrop : trim (key.dropWhile isTrimmed) = str "view_profile" := by
    unfold trim at hname ⊢
    rw [List.dropWhile_idempotent, hname]
  have hstart : str "view_profile" <+: key.dropWhile isTrimmed := by
    rw [← hname]
    exact List.rdropWhile_prefix _ _
  have hfirst : (key.dropWhile isTrimmed).head? = some 'v' := by
    obtain ⟨tail, htail⟩ := hstart
    rw [← htail, List.head?_append_of_ne_nil _ (by simp)]
    simp
  have hne : key.dropWhile isTrimmed ≠ [] := fun hnil => by
    rw [hnil] at hfirst
    cases hfirst
  have htrim : trim (key ++ '=' :: rest) =
      key.dropWhile isTrimmed ++ '=' :: rest.rdropWhile isTrimmed := by
    unfold trim
    rw [List.dropWhile_append, if_neg (mt List.isEmpty_iff.mp hne),
      rdropWhile_append_cons (by decide)]
  have hsign' : '=' ∉ key.dropWhile isTrimmed :=
    fun hmem => hsign ((List.dropWhile_suffix _).subset hmem)
  have hsetting : ¬ (key.dropWhile isTrimmed ++ '=' :: rest.rdropWhile isTrimmed = [] ∨
      (key.dropWhile isTrimmed ++ '=' :: rest.rdropWhile isTrimmed).head? = some '#') := by
    rw [List.head?_append_of_ne_nil _ hne, hfirst]
    simp
  unfold isViewProfileLine
  dsimp only
  rw [htrim, idxOf_eq_sign hsign', if_neg hsetting]
  dsimp only
  rw [List.take_left, hdrop]
  exact decide_eq_true rfl

/-- The start of another line is no line for the profile. -/
theorem isViewProfileLine_take {line : Text} (h : isViewProfileLine line = false) (bytes : ℕ) :
    isViewProfileLine (line.take bytes) = false := by
  refine Bool.eq_false_of_not_eq_true fun hcut => ?_
  obtain ⟨key, rest, hline, hkey, hname⟩ := exists_key_of_isViewProfileLine hcut
  have hwhole := isViewProfileLine_of_key (rest ++ line.drop bytes) hkey hname
  rw [← List.cons_append, ← List.append_assoc, ← hline, List.take_append_drop, h] at hwhole
  cases hwhole

/-- A profile that is not written to its end reads as Alpha, if as anything. -/
theorem lineProfile_take_desiredLine {profile read : ViewProfile} {bytes : ℕ}
    (hcut : bytes < (desiredLine profile).length)
    (h : lineProfile ((desiredLine profile).take bytes) = some read) : read = .alpha := by
  have hall : ∀ bytes < (desiredLine profile).length,
      ∀ read ∈ lineProfile ((desiredLine profile).take bytes), read = .alpha := by
    cases profile <;> decide +kernel
  exact hall bytes hcut read h

/-- What is read from a text that ends before the end of the profile. -/
theorem profiles_of_cut {before : List Text} {profile : ViewProfile} {bytes : ℕ}
    (hbefore : ∀ l ∈ before, isViewProfileLine l = false) (hnewline : ∀ l ∈ before, '\n' ∉ l)
    (hcut : bytes < (joinLines before ++ desiredLine profile).length) :
    ∀ read ∈ (getLines ((joinLines before ++ desiredLine profile).take bytes)).filterMap lineProfile,
      read = .alpha := by
  induction before generalizing bytes with
  | nil =>
    rw [joinLines_nil, List.nil_append] at hcut ⊢
    by_cases hnil : (desiredLine profile).take bytes = []
    · rw [hnil]
      nofun
    · have hone : '\n' ∉ (desiredLine profile).take bytes :=
        fun hmem => newline_notMem_desiredLine profile (List.mem_of_mem_take hmem)
      rw [getLines_of_notMem hone hnil]
      intro read hread
      obtain ⟨line, hline, hread⟩ := List.mem_filterMap.mp hread
      rw [List.mem_singleton.mp hline] at hread
      exact lineProfile_take_desiredLine hcut hread
  | cons line before ih =>
    obtain ⟨hline, hbefore⟩ := List.forall_mem_cons.mp hbefore
    obtain ⟨hopen, hnewline⟩ := List.forall_mem_cons.mp hnewline
    rw [joinLines_cons, List.append_assoc, List.cons_append] at hcut ⊢
    rcases Nat.lt_or_ge line.length bytes with hlt | hge
    · obtain ⟨more, rfl⟩ := Nat.exists_eq_add_of_lt hlt
      rw [Nat.add_assoc, List.take_length_add_append, List.take_succ_cons, getLines_line hopen,
        List.filterMap_cons, lineProfile_eq_none hline]
      refine ih hbefore hnewline ?_
      simp only [List.length_append, List.length_cons] at hcut ⊢
      omega
    · rw [List.take_append_of_le_length hge]
      by_cases hnil : line.take bytes = []
      · rw [hnil]
        nofun
      · have hone : '\n' ∉ line.take bytes := fun hmem => hopen (List.mem_of_mem_take hmem)
        rw [getLines_of_notMem hone hnil, List.filterMap_cons,
          lineProfile_eq_none (isViewProfileLine_take hline bytes)]
        nofun

/-! ## Writing -/

theorem writeLines_eq (disk : Disk) (lines : List Text) (output : OutputStream) :
    writeLines disk lines output = disk.write output (joinLines lines) := by
  induction lines generalizing output with
  | nil => rfl
  | cons line lines ih =>
    show writeLines disk lines (disk.put (disk.write output line) '\n') = _
    rw [ih, joinLines_cons, Disk.write_append]
    rfl

end Mtop
