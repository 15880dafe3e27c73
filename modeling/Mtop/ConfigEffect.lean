import Mtop.ConfigPersist

/-! The effect of `persist_view_profile` on the settings file, for every content and every answer
of the file system. -/
namespace Mtop
open Cxx
set_option autoImplicit false

variable {path : Option ConfigPath} {file : Option Text} {profile : ViewProfile}
  {outcomes : FileOutcomes}

/-! ## The point of no return -/

/-- Everything succeeds up to and including the open that truncates the file. -/
def Truncates (path : Option ConfigPath) (file : Option Text) (outcomes : FileOutcomes) : Prop :=
  (∃ p, path = some p ∧ (p.parent.isSome = true → outcomes.createDirectories.isOk = true)) ∧
    (file.isSome = true → outcomes.opensRead = true) ∧ outcomes.opensWrite = true

theorem persist_of_not_truncates (h : ¬ Truncates path file outcomes) :
    (persistViewProfile path file profile outcomes).ok = false ∧
      (persistViewProfile path file profile outcomes).file = file := by
  unfold persistViewProfile
  cases path with
  | none => exact ⟨rfl, rfl⟩
  | some path =>
    dsimp only
    split
    · exact ⟨rfl, rfl⟩
    · rename_i hread
      split
      · exact ⟨rfl, rfl⟩
      · rename_i hmkdir
        cases hopen : outcomes.opensWrite with
        | false => exact ⟨rfl, rfl⟩
        | true =>
          refine absurd ⟨⟨path, rfl, fun hparent => ?_⟩, fun hfile => ?_, hopen⟩ h
          · obtain ⟨parent, hparent⟩ := Option.isSome_iff_exists.mp hparent
            cases hcreate : outcomes.createDirectories with
            | ok => rfl
            | error reason => exact absurd hcreate (hmkdir parent reason hparent)
          · cases hok : outcomes.opensRead with
            | true => rfl
            | false => exact absurd ⟨hfile, hok⟩ hread

variable (profile) in
theorem persist_of_truncates (h : Truncates path file outcomes) :
    ((persistViewProfile path file profile outcomes).ok = true ↔
        outcomes.disk.TakesParts (rewrittenLength file profile)) ∧
      (persistViewProfile path file profile outcomes).file =
        some (outcomes.disk.keep (joinLines (newLines file profile))) := by
  obtain ⟨⟨path, rfl, hmkdir⟩, hread, hopen⟩ := h
  have hread' : ¬ (file.isSome = true ∧ outcomes.opensRead = false) := fun hno => by
    rw [hread hno.1] at hno
    exact absurd hno.2 nofun
  have hwritten := outcomes.disk.written (joinLines (newLines file profile))
  have hgood := hwritten.good_iff
  rw [length_joinLines_newLines] at hgood
  rw [← hgood, ← hwritten.close, ← writeLines_eq]
  unfold persistViewProfile newLines
  dsimp only
  rw [if_neg hread']
  split
  · rename_i parent reason hparent hcreate
    rw [hparent, hcreate] at hmkdir
    exact absurd (hmkdir rfl) nofun
  · rw [if_pos hopen]
    cases (writeLines outcomes.disk (updateLines profile (getLines (file.getD []))) {}).good
    · exact ⟨Iff.rfl, rfl⟩
    · exact ⟨Iff.rfl, rfl⟩

/-- With nothing in its way a call succeeds. -/
theorem persist_unhindered (path : ConfigPath) (file : Option Text) (profile : ViewProfile) :
    (persistViewProfile (some path) file profile {}).ok = true := by
  have htruncates : Truncates (some path) file {} := ⟨⟨path, rfl, fun _ => rfl⟩, fun _ => rfl, rfl⟩
  have hholds := Disk.holds_of_room_none (show ({} : Disk).room = none from rfl)
  exact (persist_of_truncates profile htruncates).1.mpr fun part _ _ => hholds part

/-- The file after a success: as much of the text as there is room for. -/
theorem persist_ok (h : (persistViewProfile path file profile outcomes).ok = true) :
    (persistViewProfile path file profile outcomes).file =
      some (outcomes.disk.keep (joinLines (newLines file profile))) := by
  by_cases htruncates : Truncates path file outcomes
  · exact (persist_of_truncates profile htruncates).2
  · rw [(persist_of_not_truncates htruncates).1] at h
    cases h

theorem keep_newLines_iff (disk : Disk) :
    disk.keep (joinLines (newLines file profile)) = joinLines (newLines file profile) ↔
      disk.Holds (rewrittenLength file profile) := by
  rw [Disk.keep_eq_self_iff, length_joinLines_newLines]

/-! ## The profile that is read back -/

/-- The profiles set by the lines behind the first `view_profile` line. -/
def laterProfiles (content : Text) : List ViewProfile :=
  (linesBehind content).filterMap lineProfile

/-- Those of them that there is room for behind the rewritten line. -/
def keptProfiles (disk : Disk) (file : Option Text) (profile : ViewProfile) : List ViewProfile :=
  (getLines ((disk.behind (profileEnd file profile + 1)).keep
    (joinLines (linesBehind (file.getD []))))).filterMap lineProfile

theorem linesBefore_profiles (content : Text) : (linesBefore content).filterMap lineProfile = [] :=
  List.filterMap_eq_nil_iff.mpr fun l hl => lineProfile_eq_none (isViewProfileLine_linesBefore l hl)

/-- The last line that sets a profile, if any, behind the rewritten one. -/
theorem loadLines_rewritten (content : Text) (profile : ViewProfile) (behind : List Text) :
    (loadLines (linesBefore content ++ desiredLine profile :: behind) {}).viewProfile =
      ((behind.filterMap lineProfile).getLast?).getD profile := by
  rw [loadLines_profile, List.filterMap_append, linesBefore_profiles, List.nil_append,
    List.filterMap_cons_some (lineProfile_desiredLine profile), List.getLast?_cons]
  rfl

theorem newLines_profile (file : Option Text) (profile : ViewProfile) :
    (loadLines (newLines file profile) {}).viewProfile =
      ((laterProfiles (file.getD [])).getLast?).getD profile := by
  rw [newLines_eq, loadLines_rewritten]
  rfl

section Kept
variable {disk : Disk}

/-- There is room for the profile: its line and those of the rest are read. -/
theorem getLines_keep_of_holds (h : disk.Holds (profileEnd file profile)) :
    getLines (disk.keep (joinLines (newLines file profile))) =
      linesBefore (file.getD []) ++ desiredLine profile ::
        getLines ((disk.behind (profileEnd file profile + 1)).keep
          (joinLines (linesBehind (file.getD [])))) := by
  have hlength : (joinLines (linesBefore (file.getD [])) ++ desiredLine profile).length =
      profileEnd file profile := List.length_append
  have hfront := Disk.keep_eq_self_iff.mpr (hlength ▸ h)
  have hnewline := newline_notMem_desiredLine profile
  rw [joinLines_newLines, Disk.keep_append, hfront, hlength, List.append_assoc,
    getLines_joinLines_append newline_notMem_linesBefore]
  refine congrArg (linesBefore (file.getD []) ++ ·) ?_
  unfold Disk.keep Disk.behind
  cases disk.room with
  | none => exact getLines_line hnewline _
  | some room =>
    dsimp only [Option.map_some]
    rw [Nat.sub_add_eq]
    cases room - profileEnd file profile with
    | zero =>
      rw [List.take_zero, List.append_nil, Nat.zero_sub, List.take_zero, getLines_nil]
      exact getLines_of_notMem hnewline (by simp [desiredLine])
    | succ left =>
      rw [List.take_succ_cons, Nat.add_sub_cancel]
      exact getLines_line hnewline _

/-- There is no room for the profile: whatever is read is Alpha, as is the default. -/
theorem loadConfig_keep_of_not_holds (h : ¬ disk.Holds (profileEnd file profile)) :
    (loadConfig (some (disk.keep (joinLines (newLines file profile))))).viewProfile = .alpha := by
  obtain ⟨room, hroom, hlt⟩ := Disk.not_holds_iff.mp h
  have hlength : (joinLines (linesBefore (file.getD [])) ++ desiredLine profile).length =
      profileEnd file profile := List.length_append
  have hkeep : disk.keep (joinLines (newLines file profile)) =
      (joinLines (linesBefore (file.getD [])) ++ desiredLine profile).take room := by
    unfold Disk.keep
    rw [hroom, joinLines_newLines]
    exact List.take_append_of_le_length (hlength ▸ hlt.le)
  have hall : ∀ read ∈ (getLines ((joinLines (linesBefore (file.getD [])) ++
      desiredLine profile).take room)).filterMap lineProfile, read = .alpha :=
    profiles_of_cut isViewProfileLine_linesBefore newline_notMem_linesBefore (hlength ▸ hlt)
  rw [loadConfig_eq, Option.getD_some, hkeep, loadLines_profile]
  cases hlast : (List.filterMap lineProfile (getLines
      ((joinLines (linesBefore (file.getD [])) ++ desiredLine profile).take room))).getLast? with
  | none => rfl
  | some read => exact hall read (List.mem_of_getLast? hlast)

theorem keptProfiles_of_not_holds (h : ¬ disk.Holds (profileEnd file profile)) :
    keptProfiles disk file profile = [] := by
  obtain ⟨room, hroom, hlt⟩ := Disk.not_holds_iff.mp h
  unfold keptProfiles Disk.keep Disk.behind
  rw [hroom]
  dsimp only [Option.map_some]
  rw [Nat.sub_eq_zero_of_le (hlt.le.trans (Nat.le_succ _))]
  rfl

end Kept

/-- The loader reads the persisted profile exactly when there was room for it, or it is Alpha, and no
later line that there was room for sets another one. -/
theorem persist_read_back_iff
    (h : (persistViewProfile path file profile outcomes).ok = true) :
    (loadConfig (persistViewProfile path file profile outcomes).file).viewProfile = profile ↔
      (outcomes.disk.Holds (profileEnd file profile) ∨ profile = .alpha) ∧
        ∀ later ∈ (keptProfiles outcomes.disk file profile).getLast?, later = profile := by
  rw [persist_ok h]
  by_cases hholds : outcomes.disk.Holds (profileEnd file profile)
  · rw [loadConfig_eq, Option.getD_some, getLines_keep_of_holds hholds, loadLines_rewritten]
    unfold keptProfiles
    rw [eq_true hholds, true_or, true_and]
    cases List.getLast? _ with
    | none => exact iff_of_true rfl fun later h => nomatch h
    | some later => simp
  · rw [loadConfig_keep_of_not_holds hholds, keptProfiles_of_not_holds hholds, eq_false hholds,
      false_or]
    exact ⟨fun halpha => ⟨halpha.symm, nofun⟩, fun halpha => halpha.1.symm⟩

theorem persist_read_back_appended :
    (loadConfig (persistViewProfile (some ⟨str "config", some (str ".")⟩)
      (some (str "theme=mono\r\n# view_profile=alpha\n")) .beta {}).file).viewProfile = .beta :=
  (persist_read_back_iff (persist_unhindered _ _ _)).mpr (by decide +kernel)

theorem persist_not_read_back :
    ¬ ∀ (path : Option ConfigPath) (content : Text) (profile : ViewProfile)
        (outcomes : FileOutcomes),
      (persistViewProfile path (some content) profile outcomes).ok = true →
        (loadConfig (persistViewProfile path (some content) profile outcomes).file).viewProfile =
          profile := by
  intro h
  have hbeta := h (some ⟨str "config", none⟩) (str "view_profile=alpha\nview_profile=alpha\n")
    .beta {} (persist_unhindered _ _ _)
  exact absurd hbeta (by decide +kernel)

/-! ## Everything else -/

/-- The lines are the old ones, up to a final newline, with the profile's line appended or in place
of one `view_profile` line. -/
def KeepsLines (profile : ViewProfile) (old new : Text) : Prop :=
  (joinLines (getLines old) = old ∨ joinLines (getLines old) = old ++ ['\n']) ∧
    (new = joinLines (getLines old ++ [desiredLine profile]) ∨
      ∃ before line after, getLines old = before ++ line :: after ∧
        isViewProfileLine line = true ∧ new = joinLines (before ++ desiredLine profile :: after))

theorem newLines_keep (file : Option Text) (profile : ViewProfile) :
    KeepsLines profile (file.getD []) (joinLines (newLines file profile)) := by
  refine ⟨joinLines_getLines _, ?_⟩
  unfold newLines
  rcases viewProfileLine_split (getLines (file.getD [])) with
    hnone | ⟨before, line, after, hlines, hbefore, hline⟩
  · rw [updateLines_of_none profile hnone]
    exact .inl rfl
  · rw [hlines, updateLines_of_first profile after hbefore hline]
    exact .inr ⟨before, line, after, rfl, hline, rfl⟩

theorem newLines_others (file : Option Text) (profile : ViewProfile) :
    (loadLines (newLines file profile) {}).others = (loadConfig file).others := by
  have hdesired := isViewProfileLine_desiredLine profile
  rw [loadConfig_eq]
  unfold newLines
  rcases viewProfileLine_split (getLines (file.getD [])) with
    hnone | ⟨before, line, after, hlines, hbefore, hline⟩
  · rw [updateLines_of_none profile hnone, loadLines_viewProfileLine hdesired, List.append_nil]
  · rw [hlines, updateLines_of_first profile after hbefore hline,
      loadLines_viewProfileLine hdesired, loadLines_viewProfileLine hline]

theorem length_newLines_le (file : Option Text) (profile : ViewProfile) :
    (newLines file profile).length ≤ (getLines (file.getD [])).length + 1 ∧
      ((∃ line ∈ getLines (file.getD []), isViewProfileLine line = true) →
        (newLines file profile).length ≤ (getLines (file.getD [])).length) := by
  unfold newLines
  rcases viewProfileLine_split (getLines (file.getD [])) with
    hnone | ⟨before, line, after, hlines, hbefore, hline⟩
  · rw [updateLines_of_none profile hnone, List.length_append]
    refine ⟨Nat.le_refl _, fun ⟨line, hmem, hline⟩ => ?_⟩
    rw [hnone line hmem] at hline
    cases hline
  · have hlength : (updateLines profile (before ++ line :: after)).length =
        (before ++ line :: after).length := by
      rw [updateLines_of_first profile after hbefore hline]
      simp only [List.length_append, List.length_cons]
    rw [hlines, hlength]
    exact ⟨Nat.le_succ _, fun _ => Nat.le_refl _⟩

/-- A text that is cut off lacks a line. -/
theorem eq_of_keepsLines {new : Text} (h : KeepsLines profile (file.getD []) new)
    (hstart : new <+: joinLines (newLines file profile)) :
    new = joinLines (newLines file profile) := by
  have hold : ∀ line ∈ getLines (file.getD []), '\n' ∉ line := newline_notMem_getLines _
  have hdesired := newline_notMem_desiredLine profile
  obtain ⟨hle, hle'⟩ := length_newLines_le file profile
  rcases h.2 with rfl | ⟨before, line, after, hlines, hline, rfl⟩
  · have hlines : ∀ line ∈ getLines (file.getD []) ++ [desiredLine profile], '\n' ∉ line := by
      intro l hl
      rcases List.mem_append.mp hl with hl | hl
      · exact hold l hl
      · exact List.mem_singleton.mp hl ▸ hdesired
    have hfirst := joinLines_prefix hlines (newline_notMem_newLines file profile) hstart
    rw [hfirst.eq_of_length_le (by rw [List.length_append]; exact hle)]
  · rw [hlines] at hold hle'
    have hlines' : ∀ l ∈ before ++ desiredLine profile :: after, '\n' ∉ l := by
      intro l hl
      rcases List.mem_append.mp hl with hl | hl
      · exact hold l (List.mem_append_left _ hl)
      · rcases List.mem_cons.mp hl with rfl | hl
        · exact hdesired
        · exact hold l (List.mem_append_right _ (List.mem_cons_of_mem _ hl))
    have hfirst := joinLines_prefix hlines' (newline_notMem_newLines file profile) hstart
    have hall := hle' ⟨line, List.mem_append_right _ List.mem_cons_self, hline⟩
    rw [hfirst.eq_of_length_le (by
      simp only [List.length_append, List.length_cons] at hall ⊢
      exact hall)]

/-- Rewriting the rewritten text changes nothing. -/
theorem newLines_newLines (file : Option Text) (profile : ViewProfile) :
    newLines (some (joinLines (newLines file profile))) profile = newLines file profile := by
  have hlines := getLines_joinLines (newline_notMem_newLines file profile)
  unfold newLines at hlines ⊢
  rw [Option.getD_some, hlines, updateLines_updateLines]

/-- The first call leaves every other setting and every other line alone, and a second call for the
same profile leaves the file alone. -/
def FramesSettings (path path' : Option ConfigPath) (file : Option Text) (profile : ViewProfile)
    (outcomes outcomes' : FileOutcomes) : Prop :=
  ∃ new, (persistViewProfile path file profile outcomes).file = some new ∧
    (loadConfig (some new)).others = (loadConfig file).others ∧
    KeepsLines profile (file.getD []) new ∧
    (persistViewProfile path' (some new) profile outcomes').file = some new

/-- Two successes in a row keep what they should exactly when there was room for the whole text both
times: a text that is lost when the stream is closed is no failure to them. -/
theorem persist_frame_iff {path' : Option ConfigPath} {outcomes' : FileOutcomes}
    (h : (persistViewProfile path file profile outcomes).ok = true)
    (h' : (persistViewProfile path' (persistViewProfile path file profile outcomes).file profile
      outcomes').ok = true) :
    FramesSettings path path' file profile outcomes outcomes' ↔
      outcomes.disk.Holds (rewrittenLength file profile) ∧
        outcomes'.disk.Holds (rewrittenLength file profile) := by
  unfold FramesSettings
  rw [persist_ok h] at h' ⊢
  rw [← keep_newLines_iff outcomes.disk, ← keep_newLines_iff outcomes'.disk]
  constructor
  · rintro ⟨new, hnew, -, hkeeps, hagain⟩
    obtain rfl := Option.some.inj hnew
    have hwhole := eq_of_keepsLines hkeeps (Disk.keep_prefix _ _)
    rw [hwhole] at h' hagain
    rw [persist_ok h', newLines_newLines] at hagain
    exact ⟨hwhole, Option.some.inj hagain⟩
  · rintro ⟨hwhole, hagain⟩
    rw [hwhole] at h' ⊢
    refine ⟨_, rfl, ?_, newLines_keep file profile, ?_⟩
    · rw [loadConfig_eq, Option.getD_some, getLines_joinLines (newline_notMem_newLines file profile)]
      exact newLines_others file profile
    · rw [persist_ok h', newLines_newLines, hagain]

theorem persist_frame_crlf :
    FramesSettings (some ⟨str "config", none⟩) (some ⟨str "config", none⟩)
      (some (str "sort=name\r\nview_profile = alpha\r\nrefresh_ms=5")) .beta {} {} := by
  have hholds := Disk.holds_of_room_none (show ({} : Disk).room = none from rfl)
  exact (persist_frame_iff (persist_unhindered _ _ _) (persist_unhindered _ _ _)).mpr
    ⟨hholds _, hholds _⟩

/-- The buffer of 4096 characters of a stream on a disk that is full. -/
def fullDisk : FileOutcomes :=
  { disk := { handsOver := fun bytes => bytes % 4096 == 0, room := some 0 } }

/-- A file that fits in the buffer is lost, and the call succeeds. -/
theorem persist_empties_file :
    ¬ ∀ (path path' : Option ConfigPath) (content : Text) (profile : ViewProfile)
        (outcomes outcomes' : FileOutcomes),
      (persistViewProfile path (some content) profile outcomes).ok = true →
        (persistViewProfile path' (persistViewProfile path (some content) profile outcomes).file
          profile outcomes').ok = true →
          FramesSettings path path' (some content) profile outcomes outcomes' := by
  intro h
  obtain ⟨new, hnew, hothers, -⟩ := h (some ⟨str "config", none⟩) (some ⟨str "config", none⟩)
    (str "theme=mono\nrefresh_ms=500\n") .beta fullDisk {} (by decide +kernel) (by decide +kernel)
  have hempty : (persistViewProfile (some ⟨str "config", none⟩)
      (some (str "theme=mono\nrefresh_ms=500\n")) .beta fullDisk).file = some [] := by
    decide +kernel
  obtain rfl := Option.some.inj (hempty.symm.trans hnew)
  exact absurd hothers (by decide +kernel)

/-! ## The file after a failure -/

/-- The rewritten text begins with the old content: no `view_profile` line, one that is already
as desired, or an unfinished last line that the desired one completes. -/
def BeginsAsBefore (profile : ViewProfile) (content : Text) : Prop :=
  ∀ before line after, getLines content = before ++ line :: after →
    (∀ l ∈ before, isViewProfileLine l = false) → isViewProfileLine line = true →
      line = desiredLine profile ∨
        (after = [] ∧ joinLines (getLines content) ≠ content ∧ line <+: desiredLine profile)

theorem first_unique {before before' : List Text} {line line' : Text} {after after' : List Text}
    (h : before ++ line :: after = before' ++ line' :: after')
    (hbefore : ∀ l ∈ before, isViewProfileLine l = false) (hline : isViewProfileLine line = true)
    (hbefore' : ∀ l ∈ before', isViewProfileLine l = false)
    (hline' : isViewProfileLine line' = true) : before = before' ∧ line = line' ∧ after = after' := by
  induction before generalizing before' with
  | nil =>
    cases before' with
    | nil =>
      cases h
      exact ⟨rfl, rfl, rfl⟩
    | cons first before' =>
      cases h
      rw [hbefore' line List.mem_cons_self] at hline
      cases hline
  | cons first before ih =>
    have hfirst := hbefore first List.mem_cons_self
    cases before' with
    | nil =>
      cases h
      rw [hfirst] at hline'
      cases hline'
    | cons first' before' =>
      obtain ⟨rfl, htail⟩ := List.cons.inj h
      obtain ⟨rfl, hrest⟩ := ih htail (fun l hl => hbefore l (List.mem_cons_of_mem _ hl))
        fun l hl => hbefore' l (List.mem_cons_of_mem _ hl)
      exact ⟨rfl, hrest⟩

section Split
variable {content line : Text} {before after : List Text}

theorem beginsAsBefore_iff (hlines : getLines content = before ++ line :: after)
    (hbefore : ∀ l ∈ before, isViewProfileLine l = false) (hline : isViewProfileLine line = true) :
    BeginsAsBefore profile content ↔ (line = desiredLine profile ∨
      (after = [] ∧ joinLines (getLines content) ≠ content ∧ line <+: desiredLine profile)) := by
  constructor
  · intro h
    exact h before line after hlines hbefore hline
  · intro h before' line' after' hlines' hbefore' hline'
    obtain ⟨-, rfl, rfl⟩ := first_unique (hlines.symm.trans hlines') hbefore hline hbefore' hline'
    exact h

/-- An appended line leaves the old content in front. -/
theorem prefix_appended (content : Text) (lines : List Text) :
    content <+: joinLines (getLines content ++ lines) := by
  rw [joinLines_append]
  rcases joinLines_getLines content with hjoin | hjoin
  · rw [hjoin]
    exact List.prefix_append _ _
  · rw [hjoin, List.append_assoc]
    exact List.prefix_append _ _

/-- Content that ends with a newline. -/
theorem prefix_closed_iff (hline : '\n' ∉ line)
    (hjoin : joinLines before ++ (line ++ '\n' :: joinLines after) = content) :
    content <+: joinLines before ++ (desiredLine profile ++ '\n' :: joinLines after) ↔
      line = desiredLine profile := by
  rw [← hjoin, List.prefix_append_right_inj,
    line_prefix_iff hline (newline_notMem_desiredLine profile)]
  constructor
  · intro h
    exact h.1
  · intro h
    exact ⟨h, List.prefix_refl _⟩

/-- The line to replace is the last one, without a newline. -/
theorem prefix_open_iff (hline : '\n' ∉ line)
    (hjoin : joinLines before ++ (line ++ '\n' :: joinLines []) = content ++ ['\n']) :
    content <+: joinLines before ++ (desiredLine profile ++ '\n' :: joinLines []) ↔
      line <+: desiredLine profile := by
  have hcontent : content = joinLines before ++ line := by
    rw [joinLines_nil, ← List.append_assoc] at hjoin
    exact (List.append_cancel_right hjoin).symm
  rw [hcontent, List.prefix_append_right_inj, open_line_prefix_iff hline]

/-- The last line has no newline, but the line to replace does. -/
theorem prefix_inner_iff {next : Text} {rest : List Text} (hline : '\n' ∉ line)
    (hjoin : joinLines before ++ (line ++ '\n' :: joinLines (next :: rest)) = content ++ ['\n']) :
    content <+: joinLines before ++ (desiredLine profile ++ '\n' :: joinLines (next :: rest)) ↔
      line = desiredLine profile := by
  obtain ⟨tail, htail⟩ := joinLines_eq_concat next rest
  have hcontent : content = joinLines before ++ (line ++ '\n' :: tail) := by
    rw [htail, ← List.cons_append, ← List.append_assoc, ← List.append_assoc] at hjoin
    rw [← List.append_assoc]
    exact (List.append_cancel_right hjoin).symm
  rw [hcontent, htail, List.prefix_append_right_inj,
    line_prefix_iff hline (newline_notMem_desiredLine profile)]
  constructor
  · intro h
    exact h.1
  · intro h
    exact ⟨h, List.prefix_append _ _⟩

end Split

theorem prefix_iff (content : Text) (profile : ViewProfile) :
    content <+: joinLines (newLines (some content) profile) ↔ BeginsAsBefore profile content := by
  have hjoin := joinLines_getLines content
  unfold newLines
  rw [Option.getD_some]
  rcases viewProfileLine_split (getLines content) with
    hnone | ⟨before, line, after, hlines, hbefore, hline⟩
  · rw [updateLines_of_none profile hnone]
    refine iff_of_true (prefix_appended content _) fun before line after hlines _ hline => ?_
    have hmem : line ∈ getLines content := hlines ▸ List.mem_append_right _ List.mem_cons_self
    rw [hnone line hmem] at hline
    cases hline
  · have hline' : '\n' ∉ line :=
      newline_notMem_getLines content line (hlines ▸ List.mem_append_right _ List.mem_cons_self)
    rw [beginsAsBefore_iff hlines hbefore hline, hlines,
      updateLines_of_first profile after hbefore hline]
    rw [hlines, joinLines_append, joinLines_cons] at hjoin
    rw [joinLines_append, joinLines_append, joinLines_cons, joinLines_cons]
    rcases hjoin with hjoin | hjoin
    · rw [prefix_closed_iff hline' hjoin]
      exact ⟨.inl, fun h => h.resolve_right fun hopen => hopen.2.1 hjoin⟩
    · cases after with
      | nil =>
        have hopen : joinLines before ++ (line ++ '\n' :: joinLines []) ≠ content := fun h =>
          List.cons_ne_nil '\n' [] (List.append_right_eq_self.mp (hjoin.symm.trans h))
        rw [prefix_open_iff hline' hjoin]
        constructor
        · intro h
          exact .inr ⟨rfl, hopen, h⟩
        · rintro (h | h)
          · exact h ▸ List.prefix_refl _
          · exact h.2.2
      | cons next rest =>
        rw [prefix_inner_iff hline' hjoin]
        exact ⟨.inl, fun h => h.resolve_right fun hopen => List.cons_ne_nil next rest hopen.1⟩

/-- What there is room for is the old content. -/
theorem take_newLines_iff {content : Text} {room : ℕ}
    (hcut : room < rewrittenLength (some content) profile) :
    (joinLines (newLines (some content) profile)).take room = content ↔
      room = content.length ∧ BeginsAsBefore profile content := by
  rw [← length_joinLines_newLines] at hcut
  rw [← prefix_iff]
  constructor
  · intro h
    have hstart := List.take_prefix room (joinLines (newLines (some content) profile))
    have hlength := congrArg List.length h
    rw [h] at hstart
    rw [List.length_take, Nat.min_eq_left hcut.le] at hlength
    exact ⟨hlength, hstart⟩
  · rintro ⟨rfl, hstart⟩
    exact (List.prefix_iff_eq_take.mp hstart).symm

/-- A failure leaves the file as it was. -/
def FailureKeepsFile (path : Option ConfigPath) (file : Option Text) (profile : ViewProfile)
    (outcomes : FileOutcomes) : Prop :=
  (persistViewProfile path file profile outcomes).ok = false →
    (persistViewProfile path file profile outcomes).file = file

/-- The failure comes before the file is truncated, or everything that is handed over before the
stream is closed is taken, or what there is room for is just the old content. -/
theorem failureKeepsFile_iff :
    FailureKeepsFile path file profile outcomes ↔
      ¬ Truncates path file outcomes ∨
        outcomes.disk.TakesParts (rewrittenLength file profile) ∨
        ∃ content, file = some content ∧ outcomes.disk.room = some content.length ∧
          BeginsAsBefore profile content := by
  unfold FailureKeepsFile
  by_cases htruncates : Truncates path file outcomes
  · obtain ⟨hok, hfile⟩ := persist_of_truncates profile htruncates
    rw [← Bool.not_eq_true, hok, hfile, eq_false (not_not.mpr htruncates), false_or]
    by_cases hparts : outcomes.disk.TakesParts (rewrittenLength file profile)
    · exact iff_of_true (fun h => absurd hparts h) (.inl hparts)
    · have hfull : ¬ outcomes.disk.Holds (rewrittenLength file profile) :=
        fun hholds => hparts fun part hle _ => hholds.mono hle
      obtain ⟨room, hroom, hcut⟩ := Disk.not_holds_iff.mp hfull
      rw [eq_false hparts, not_false_eq_true, true_imp_iff, false_or]
      unfold Disk.keep
      rw [hroom]
      cases file with
      | none => exact iff_of_false nofun nofun
      | some content =>
        simp only [Option.some.injEq, exists_eq_left']
        exact take_newLines_iff hcut
  · exact iff_of_true (fun _ => (persist_of_not_truncates htruncates).2) (.inl htruncates)

/-- A comment that does not fit in the buffer, and a setting. -/
def longFile : Text := List.replicate 5000 '#' ++ '\n' :: str "theme=mono\n"

theorem length_longFile_le (profile : ViewProfile) :
    5000 ≤ rewrittenLength (some longFile) profile := by
  have hplain : isViewProfileLine (List.replicate 5000 '#') = false := by
    refine Bool.eq_false_of_not_eq_true fun h => ?_
    obtain ⟨key, rest, hline, -, -⟩ := exists_key_of_isViewProfileLine h
    have hmem : '=' ∈ List.replicate 5000 '#' :=
      hline ▸ List.mem_append_right _ List.mem_cons_self
    exact absurd (List.eq_of_mem_replicate hmem) (by decide)
  have hnewline : '\n' ∉ List.replicate 5000 '#' :=
    fun hmem => absurd (List.eq_of_mem_replicate hmem) (by decide)
  unfold rewrittenLength profileEnd linesBefore longFile
  rw [Option.getD_some, getLines_line hnewline,
    List.takeWhile_cons_of_pos (by rw [hplain]; rfl), length_joinLines_cons, List.length_append,
    List.length_replicate]
  omega

theorem failure_loses_settings :
    ¬ ∀ (path : Option ConfigPath) (content : Text) (profile : ViewProfile)
        (outcomes : FileOutcomes), FailureKeepsFile path (some content) profile outcomes := by
  intro h
  have hlost := h (some ⟨str "config", none⟩) longFile .beta fullDisk
  have htruncates : Truncates (some ⟨str "config", none⟩) (some longFile) fullDisk :=
    ⟨⟨_, rfl, nofun⟩, fun _ => rfl, rfl⟩
  obtain ⟨hok, hfile⟩ := persist_of_truncates .beta htruncates
  have hfails : ¬ fullDisk.disk.TakesParts (rewrittenLength (some longFile) .beta) := by
    intro hparts
    have hpart := hparts 4096 ((by decide : 4096 ≤ 5000).trans (length_longFile_le .beta)) (by decide)
    exact absurd (hpart 0 rfl) (by decide)
  unfold FailureKeepsFile at hlost
  rw [← Bool.not_eq_true, hok, hfile] at hlost
  have hempty : [] = longFile := Option.some.inj (hlost hfails)
  exact List.append_ne_nil_of_right_ne_nil _ (List.cons_ne_nil _ _) hempty.symm

end Mtop
