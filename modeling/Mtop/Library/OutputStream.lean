import Mtop.Library.CxxLines

/-! Output through a stream buffer (`std::ofstream`). What is put in the stream reaches the file when
the buffer is handed over: now and then, when the buffer is full, and once more when the stream is
closed. A hand-over that the file does not take turns the stream bad, but the last one comes after
the program has looked at the stream. -/
namespace Cxx
set_option autoImplicit false

/-! ## The file behind a stream -/

/-- How the output reaches a file. The buffer is handed over after the characters that `handsOver`
names by number, whatever its size and policy; the file has room for so many bytes (on a full disk
for none) and takes nothing beyond them. -/
structure Disk where
  handsOver : ℕ → Bool := fun _ => false
  room : Option ℕ := none

namespace Disk

/-- There is room for so many bytes. -/
def Holds (disk : Disk) (bytes : ℕ) : Prop := ∀ room ∈ disk.room, bytes ≤ room

instance (disk : Disk) (bytes : ℕ) : Decidable (disk.Holds bytes) := by
  unfold Holds
  infer_instance

/-- The part of a text that there is room for. -/
def keep (disk : Disk) (text : Text) : Text :=
  match disk.room with
  | none => text
  | some room => text.take room

/-- The room that is left behind so many bytes. -/
def behind (disk : Disk) (bytes : ℕ) : Disk := { disk with room := disk.room.map (· - bytes) }

variable {disk : Disk}

theorem Holds.mono {bytes bytes' : ℕ} (h : disk.Holds bytes') (hle : bytes ≤ bytes') :
    disk.Holds bytes := fun room hroom => hle.trans (h room hroom)

theorem holds_of_room_none (h : disk.room = none) (bytes : ℕ) : disk.Holds bytes := by
  intro room hroom
  rw [h] at hroom
  cases hroom

theorem not_holds_iff {bytes : ℕ} :
    ¬ disk.Holds bytes ↔ ∃ room, disk.room = some room ∧ room < bytes := by
  unfold Holds
  cases disk.room <;> simp

theorem keep_prefix (disk : Disk) (text : Text) : disk.keep text <+: text := by
  unfold keep
  cases disk.room with
  | none => exact List.prefix_refl text
  | some room => exact List.take_prefix room text

theorem keep_eq_self_iff {text : Text} : disk.keep text = text ↔ disk.Holds text.length := by
  unfold keep Holds
  cases disk.room with
  | none => simp
  | some room => simp [List.take_eq_self_iff]

theorem keep_append (disk : Disk) (text rest : Text) :
    disk.keep (text ++ rest) = disk.keep text ++ (disk.behind text.length).keep rest := by
  unfold keep behind
  cases disk.room with
  | none => rfl
  | some room => exact List.take_append

/-- Behind a text that does not fit, nothing more is kept. -/
theorem keep_append_of_not_holds {text : Text} (h : ¬ disk.Holds text.length) (rest : Text) :
    disk.keep (text ++ rest) = disk.keep text := by
  obtain ⟨room, hroom, hlt⟩ := not_holds_iff.mp h
  unfold keep
  rw [hroom]
  exact List.take_append_of_le_length hlt.le

theorem keep_keep_append {text : Text} (h : ¬ disk.Holds text.length) (rest : Text) :
    disk.keep (disk.keep text ++ rest) = disk.keep text := by
  obtain ⟨room, hroom, hlt⟩ := not_holds_iff.mp h
  unfold keep
  rw [hroom]
  dsimp only
  rw [List.take_append_of_le_length (by rw [List.length_take]; omega), List.take_take,
    Nat.min_self]

end Disk

/-! ## The stream -/

/-- What the file has taken, what waits in the buffer, and whether the stream is good. -/
structure OutputStream where
  taken : Text := []
  pending : Text := []
  good : Bool := true

namespace Disk

/-- The buffer is handed over; one that the file does not take as a whole is not emptied. -/
def flush (disk : Disk) (output : OutputStream) : OutputStream :=
  if disk.Holds (output.taken ++ output.pending).length then
    { output with taken := output.taken ++ output.pending, pending := [] }
  else { output with taken := disk.keep (output.taken ++ output.pending), good := false }

/-- One character; a bad stream takes none. -/
def put (disk : Disk) (output : OutputStream) (c : Char) : OutputStream :=
  if output.good then
    let output := { output with pending := output.pending ++ [c] }
    if disk.handsOver (output.taken ++ output.pending).length then disk.flush output else output
  else output

def write (disk : Disk) (output : OutputStream) (text : Text) : OutputStream :=
  text.foldl disk.put output

/-- What the file holds once the stream is closed: the buffer is handed over once more, and nobody
looks at the result. -/
def close (disk : Disk) (output : OutputStream) : Text := (disk.flush output).taken

variable (disk : Disk)

theorem write_append (output : OutputStream) (text rest : Text) :
    disk.write output (text ++ rest) = disk.write (disk.write output text) rest :=
  List.foldl_append

/-- The file takes every part of so many bytes that is handed over before the stream is closed. -/
def TakesParts (bytes : ℕ) : Prop :=
  ∀ part ≤ bytes, disk.handsOver part = true → disk.Holds part

/-- A stream that a text has been written to. -/
structure Written (output : OutputStream) (text : Text) : Prop where
  good_iff : output.good = true ↔ disk.TakesParts text.length
  /-- While all is well, the text is in the file or in the buffer. -/
  content : output.good = true → output.taken ++ output.pending = text
  /-- A bad stream has left what there was room for in the file. -/
  bad : output.good = false → output.taken = disk.keep text ∧ ¬ disk.Holds text.length

variable {disk}

theorem takesParts_zero : disk.TakesParts 0 := by
  intro part hle _
  rw [Nat.le_zero.mp hle]
  exact fun room _ => Nat.zero_le room

theorem takesParts_succ_iff {bytes : ℕ} :
    disk.TakesParts (bytes + 1) ↔ disk.TakesParts bytes ∧
      (disk.handsOver (bytes + 1) = true → disk.Holds (bytes + 1)) := by
  constructor
  · intro h
    exact ⟨fun part hle => h part (hle.trans (Nat.le_succ _)), h _ (Nat.le_refl _)⟩
  · rintro ⟨h, hlast⟩ part hle
    rcases Nat.le_succ_iff.mp hle with hle | rfl
    · exact h part hle
    · exact hlast

instance (bytes : ℕ) : Decidable (disk.TakesParts bytes) := by
  unfold TakesParts
  infer_instance

theorem Written.init : disk.Written {} [] where
  good_iff := iff_of_true rfl takesParts_zero
  content := fun _ => rfl
  bad := nofun

/-- One more character keeps the invariant. -/
theorem Written.put {output : OutputStream} {text : Text} (h : disk.Written output text) (c : Char) :
    disk.Written (disk.put output c) (text ++ [c]) := by
  have hlength : (text ++ [c]).length = text.length + 1 := List.length_append
  unfold Disk.put
  cases hgood : output.good with
  | false =>
    obtain ⟨htaken, hfull⟩ := h.bad hgood
    have hparts : ¬ disk.TakesParts text.length := fun hparts => by
      rw [h.good_iff.mpr hparts] at hgood
      cases hgood
    rw [if_neg Bool.false_ne_true]
    refine ⟨?_, fun hbad => ?_, fun _ => ⟨?_, fun hholds => hfull (hholds.mono ?_)⟩⟩
    · rw [hgood, hlength, takesParts_succ_iff]
      exact iff_of_false Bool.false_ne_true fun hall => hparts hall.1
    · rw [hgood] at hbad
      cases hbad
    · rw [keep_append_of_not_holds hfull, htaken]
    · rw [hlength]
      exact Nat.le_succ _
  | true =>
    have hparts := h.good_iff.mp hgood
    have hcontent : output.taken ++ (output.pending ++ [c]) = text ++ [c] := by
      rw [← List.append_assoc, h.content hgood]
    rw [if_pos rfl]
    dsimp only
    rw [hcontent]
    by_cases hover : disk.handsOver (text ++ [c]).length = true
    · rw [if_pos hover]
      unfold flush
      dsimp only
      rw [hcontent]
      by_cases hholds : disk.Holds (text ++ [c]).length
      · rw [if_pos hholds]
        refine ⟨iff_of_true rfl ?_, fun _ => List.append_nil _, nofun⟩
        rw [hlength] at hholds ⊢
        exact takesParts_succ_iff.mpr ⟨hparts, fun _ => hholds⟩
      · rw [if_neg hholds]
        refine ⟨iff_of_false Bool.false_ne_true fun hall => hholds ?_, nofun,
          fun _ => ⟨rfl, hholds⟩⟩
        exact hall _ (Nat.le_refl _) hover
    · rw [if_neg hover]
      refine ⟨iff_of_true rfl ?_, fun _ => hcontent, nofun⟩
      rw [hlength] at hover ⊢
      exact takesParts_succ_iff.mpr ⟨hparts, fun h => absurd h hover⟩

theorem Written.write {output : OutputStream} {text : Text} (h : disk.Written output text)
    (rest : Text) : disk.Written (disk.write output rest) (text ++ rest) := by
  induction rest generalizing output text with
  | nil =>
    rw [List.append_nil]
    exact h
  | cons c rest ih =>
    rw [List.append_cons]
    exact ih (h.put c)

/-- The closed file holds what there is room for, however the stream fared. -/
theorem Written.close {output : OutputStream} {text : Text} (h : disk.Written output text) :
    disk.close output = disk.keep text := by
  unfold Disk.close flush
  cases hgood : output.good with
  | true =>
    rw [h.content hgood]
    by_cases hholds : disk.Holds text.length
    · rw [if_pos hholds, keep_eq_self_iff.mpr hholds]
    · rw [if_neg hholds]
  | false =>
    obtain ⟨htaken, hfull⟩ := h.bad hgood
    rw [htaken]
    split
    · rename_i hholds
      have hkeep := keep_eq_self_iff.mpr hholds
      rw [keep_keep_append hfull] at hkeep
      exact hkeep.symm
    · exact keep_keep_append hfull output.pending

/-- A text written to a new stream. -/
theorem written (disk : Disk) (text : Text) : disk.Written (disk.write {} text) text :=
  Written.init.write text

end Disk
end Cxx
