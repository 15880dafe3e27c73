import Mtop.Cli

/-! What any number of starts of the program, with any command lines, leave in the settings files. -/
namespace Mtop
open Cxx
set_option autoImplicit false

/-! ## One file -/

/-- The lines behind the rewritten one stay as they are. -/
theorem laterProfiles_newLines (file : Option Text) (profile : ViewProfile) :
    laterProfiles (joinLines (newLines file profile)) = laterProfiles (file.getD []) := by
  have hbefore : ∀ l ∈ linesBefore (file.getD []), (!isViewProfileLine l) = true :=
    fun l hl => by rw [isViewProfileLine_linesBefore l hl]; rfl
  have hstop : ¬ (!isViewProfileLine (desiredLine profile)) = true := by
    rw [isViewProfileLine_desiredLine]
    exact nofun
  have hbehind : linesBehind (joinLines (newLines file profile)) = linesBehind (file.getD []) := by
    rw [linesBehind, getLines_joinLines (newline_notMem_newLines file profile), newLines_eq,
      List.dropWhile_append_of_pos hbefore,
      List.dropWhile_cons_of_neg (p := fun l => !isViewProfileLine l) hstop]
    rfl
  unfold laterProfiles
  rw [hbehind]

/-- The file follows the choices: the last one is read back unless a later line overrules it, the
other settings stay, and without a choice so does the whole file. -/
def FollowsChoices (before after : Option Text) (chosen : List ViewProfile) : Prop :=
  match chosen.getLast? with
  | none => after = before
  | some profile =>
    (loadConfig after).others = (loadConfig before).others ∧
      (loadConfig after).viewProfile =
        ((laterProfiles (before.getD [])).getLast?).getD profile ∧
      laterProfiles (after.getD []) = laterProfiles (before.getD [])

theorem FollowsChoices.nil (file : Option Text) : FollowsChoices file file [] := rfl

/-- A choice in front of the others is kept by them or overruled. -/
theorem FollowsChoices.cons {file after : Option Text} {profile : ViewProfile}
    {chosen : List ViewProfile}
    (h : FollowsChoices (some (joinLines (newLines file profile))) after chosen) :
    FollowsChoices file after (profile :: chosen) := by
  have hlines := getLines_joinLines (newline_notMem_newLines file profile)
  have hlater := laterProfiles_newLines file profile
  have hothers : (loadConfig (some (joinLines (newLines file profile)))).others =
      (loadConfig file).others := by
    rw [loadConfig_eq, Option.getD_some, hlines]
    exact newLines_others file profile
  unfold FollowsChoices at h ⊢
  rw [List.getLast?_cons]
  cases hlast : chosen.getLast? with
  | none =>
    rw [hlast] at h
    subst h
    refine ⟨hothers, ?_, hlater⟩
    rw [loadConfig_eq, Option.getD_some, hlines]
    exact newLines_profile file profile
  | some last =>
    rw [hlast] at h
    rw [Option.getD_some] at h
    exact ⟨h.1.trans hothers, h.2.1.trans (by rw [hlater]; rfl), h.2.2.trans hlater⟩

/-! ## One start -/

/-- The path and the profile that a start has persisted. -/
def Launch.chosen (env : PathEnv) : Launch → Option (Text × ViewProfile)
  | .starts options _ => do
    let path ← env.configPath options.configPath
    let profile ← options.viewProfile
    return (path, profile)
  | _ => none

/-- On a disk that is not full, a call that fails has not touched the file. -/
theorem persist_of_room (path : Option ConfigPath) (file : Option Text) (profile : ViewProfile)
    {outcomes : FileOutcomes} (hroom : outcomes.disk.room = none) :
    ((persistViewProfile path file profile outcomes).ok = true ∧
        (persistViewProfile path file profile outcomes).file =
          some (joinLines (newLines file profile))) ∨
      ((persistViewProfile path file profile outcomes).ok = false ∧
        (persistViewProfile path file profile outcomes).file = file) := by
  have hholds := Disk.holds_of_room_none hroom
  by_cases h : Truncates path file outcomes
  · obtain ⟨hok, hfile⟩ := persist_of_truncates profile h
    rw [(keep_newLines_iff outcomes.disk).mpr (hholds _)] at hfile
    exact .inl ⟨hok.mpr fun part _ _ => hholds part, hfile⟩
  · exact .inr (persist_of_not_truncates h)

section Starts
variable (env : PathEnv) (files : Files) {invocation : Invocation}

/-- A start persists what it has been told, on one path, or it leaves all files alone. -/
theorem launch_files (hroom : invocation.outcomes.disk.room = none) :
    ((launch env files invocation).1.chosen env = none ∧
        (launch env files invocation).2 = files) ∨
      ∃ path profile, (launch env files invocation).1.chosen env = some (path, profile) ∧
        (launch env files invocation).2 =
          Function.update files path (some (joinLines (newLines (files path) profile))) := by
  unfold launch
  dsimp only
  by_cases hhelp : (parseArgs invocation.args).help = true
  · rw [if_pos hhelp]
    exact .inl ⟨rfl, rfl⟩
  by_cases hversion : (parseArgs invocation.args).version = true
  · rw [if_neg hhelp, if_pos hversion]
    exact .inl ⟨rfl, rfl⟩
  rw [if_neg hhelp, if_neg hversion]
  cases hinvalid : (parseArgs invocation.args).invalidViewProfile with
  | some value => exact .inl ⟨rfl, rfl⟩
  | none =>
    cases hview : (parseArgs invocation.args).viewProfile with
    | none =>
      refine .inl ⟨?_, rfl⟩
      simp only [Launch.chosen, hview, Option.bind_eq_bind, Option.bind_none, Option.bind_fun_none]
    | some profile =>
      unfold persistAt
      cases hpath : env.configPath (parseArgs invocation.args).configPath with
      | none => exact .inl ⟨rfl, rfl⟩
      | some path =>
        dsimp only
        rcases persist_of_room (some ⟨path, env.parentOf path⟩) (files path) profile hroom with
          ⟨hok, hfile⟩ | ⟨hok, hfile⟩
        · rw [hok, hfile, if_pos rfl]
          refine .inr ⟨path, profile, ?_, rfl⟩
          simp only [Launch.chosen, hpath, hview, Option.bind_eq_bind, Option.bind_some,
            Option.pure_def]
        · rw [hok, hfile, if_neg Bool.false_ne_true, Function.update_eq_self]
          exact .inl ⟨rfl, rfl⟩

end Starts

/-! ## All starts -/

/-- The profiles that were persisted on a path, in order. -/
def chosenAt (env : PathEnv) (path : Text) (launches : List Launch) : List ViewProfile :=
  launches.filterMap fun first =>
    (first.chosen env).bind fun choice => if choice.1 = path then some choice.2 else none

/-- After any sequence of starts with any command lines, with room on the disk, each settings file holds
the profile that was last chosen for it, as far as no later line of its own overrules it, and every
other setting as it was in the beginning; a file that nothing was chosen for is untouched. -/
theorem files_follow_choices (env : PathEnv) {invocations : List Invocation} (files : Files)
    (hroom : ∀ invocation ∈ invocations, invocation.outcomes.disk.room = none) (path : Text) :
    FollowsChoices (files path) ((launchAll env invocations files).2 path)
      (chosenAt env path (launchAll env invocations files).1) := by
  induction invocations generalizing files with
  | nil => exact .nil (files path)
  | cons invocation invocations ih =>
    have hrest := ih (launch env files invocation).2
      fun later hlater => hroom later (List.mem_cons_of_mem _ hlater)
    show FollowsChoices (files path)
      ((launchAll env invocations (launch env files invocation).2).2 path)
      (chosenAt env path ((launch env files invocation).1 ::
        (launchAll env invocations (launch env files invocation).2).1))
    unfold chosenAt at hrest ⊢
    rw [List.filterMap_cons]
    rcases launch_files env files (hroom invocation List.mem_cons_self) with
      ⟨hchosen, hfiles⟩ | ⟨other, profile, hchosen, hfiles⟩
    · rw [hfiles] at hrest
      rw [hchosen, hfiles]
      exact hrest
    · rw [hfiles] at hrest
      rw [hchosen, hfiles, Option.bind_some]
      by_cases hother : other = path
      · subst hother
        rw [Function.update_self] at hrest
        rw [if_pos rfl]
        exact hrest.cons
      · rw [Function.update_of_ne (Ne.symm hother)] at hrest
        rw [if_neg hother]
        exact hrest

/-- Beta is chosen, then Alpha with a word that is no profile behind it, and help is asked for. -/
def threeStarts : List Invocation :=
  [{ args := [str "--view", str "beta"] }, { args := [str "-view", str "alpha", str "--view"] },
    { args := [str "--view", str "alpha", str "-h"] }]

def plainPaths : PathEnv := ⟨some (str "config"), fun _ => none⟩

theorem files_follow_choices_threeStarts :
    chosenAt plainPaths (str "config") (launchAll plainPaths threeStarts fun _ => none).1 =
        [.beta] ∧
      FollowsChoices none ((launchAll plainPaths threeStarts fun _ => none).2 (str "config"))
        (chosenAt plainPaths (str "config") (launchAll plainPaths threeStarts fun _ => none).1) := by
  refine ⟨by decide +kernel, files_follow_choices plainPaths (fun _ => none) ?_ (str "config")⟩
  intro invocation hmem
  simp only [threeStarts, List.mem_cons, List.not_mem_nil, or_false] at hmem
  rcases hmem with rfl | rfl | rfl <;> rfl

end Mtop
