import Mtop.Library.DoubleWith
import Mtop.Platform.TaskRows

/-! The two shares of a core mix, with the columns of the row read as they are written: both are shown
between 0 and 100 and add up to 100 exactly when the share of the primary cores is no half and would
not be shown outside. -/
namespace Mtop
open Cxx Std
set_option autoImplicit false

/-! ## The text over another rounding -/

/-- The columns that the share of the primary cores is read from. -/
inductive ShareColumns where
  | percent (text : Text)
  | ratio (primaryMs total : Text)
  | missing

/-- The rule that applies to the row, and whether the primary cores may be super cores. -/
def shareColumns (row : TreeMap Text Text) : ShareColumns × Bool :=
  match row[str "%SCPU"]?, row[str "SCPU ms/s"]?, row[str "CPU ms/s"]?, row[str "%PCPU"]?,
    row[str "PCPU ms/s"]? with
  | some scpu, _, _, _, _ => (.percent scpu, true)
  | none, some primaryMs, some total, _, _ => (.ratio primaryMs total, true)
  | _, _, _, some pcpu, _ => (.percent pcpu, false)
  | _, _, some total, none, some primaryMs => (.ratio primaryMs total, false)
  | _, _, _, _, _ => (.missing, false)

section With
variable (round : Bool → ℚ≥0 → Double)

def atofWith (text : Text) : Double := (strtodWith round text).1

def primaryShareWith (primaryMs total : Double) : Double :=
  if Double.lt 0 total then Double.divWith round (Double.mulWith round primaryMs 100) total else 0

def ShareColumns.shareWith : ShareColumns → Double
  | .percent text => atofWith round text
  | .ratio primaryMs total => primaryShareWith round (atofWith round primaryMs) (atofWith round total)
  | .missing => 0

/-- `std::max(0.0, 100.0 - primary_percent)`. -/
def secondaryWith (primary : Double) : Double :=
  let rest := Double.addWith round 100 primary.neg
  if Double.lt 0 rest then rest else 0

def mixText (superLabels : Bool) (primary secondary : ℤ) : Text :=
  (if superLabels then str "S" else str "P") ++ ':' :: intText primary ++ str "% " ++
    (if superLabels then str "P" else str "E") ++ ':' :: intText secondary ++ ['%']

def coreMixTextWith (hasSuper : Bool) (row : TreeMap Text Text) : Text :=
  let primary := (shareColumns row).1.shareWith round
  mixText ((shareColumns row).2 && hasSuper) (roundToInt primary)
    (roundToInt (secondaryWith round primary))

end With

/-- With the columns taken as exact decimals. -/
def exactMixText (hasSuper : Bool) (row : TreeMap Text Text) : Text :=
  coreMixTextWith unrounded hasSuper row

theorem primaryPercent_eq (row : TreeMap Text Text) :
    primaryPercent row =
      ((shareColumns row).1.shareWith Double.roundMagnitude, (shareColumns row).2) := by
  have hshare : primaryShareWith Double.roundMagnitude = primaryShare := by
    funext primaryMs total
    unfold primaryShareWith primaryShare
    rw [mulWith_roundMagnitude, divWith_roundMagnitude]
  have hread : atofWith Double.roundMagnitude = atof := by
    funext text
    rw [atofWith, strtodWith_roundMagnitude, atof]
  unfold primaryPercent shareColumns
  generalize row[str "%SCPU"]? = percentSuper
  generalize row[str "SCPU ms/s"]? = msSuper
  generalize row[str "CPU ms/s"]? = total
  generalize row[str "%PCPU"]? = percentPrimary
  generalize row[str "PCPU ms/s"]? = msPrimary
  rw [← hshare, ← hread]
  cases percentSuper <;> cases msSuper <;> cases total <;> cases percentPrimary <;>
    cases msPrimary <;> rfl

/-- The program is the one with the rounding of the machine. -/
theorem coreMixText_eq : coreMixText = coreMixTextWith Double.roundMagnitude := by
  funext hasSuper row
  unfold coreMixText coreMixTextWith mixText secondaryWith
  rw [primaryPercent_eq, addWith_roundMagnitude]

/-! ## The percentages shown -/

/-- The text shows these two percentages. -/
def Shows (mix : Text) (primary secondary : ℤ) : Prop :=
  ∃ first second : Char, mix = first :: ':' :: (intText primary ++
    '%' :: ' ' :: second :: ':' :: (intText secondary ++ ['%']))

/-- Both percentages lie in 0..100, and their sum is 100. -/
def SharesAddUp (mix : Text) : Prop :=
  ∃ primary secondary : ℤ, Shows mix primary secondary ∧ (0 ≤ primary ∧ primary ≤ 100) ∧
    (0 ≤ secondary ∧ secondary ≤ 100) ∧ primary + secondary = 100

theorem percent_notMem_intText (n : ℤ) : '%' ∉ intText n := by
  have hdigits : '%' ∉ natText n.natAbs := fun h => absurd (natText_isDigit _ _ h) (by decide)
  unfold intText
  split
  · rw [List.mem_cons, not_or]
    exact ⟨by decide, hdigits⟩
  · exact hdigits

theorem intText_percent_inj {n m : ℤ} {s t : Text} (h : intText n ++ '%' :: s = intText m ++ '%' :: t) :
    n = m ∧ s = t := by
  have hcut : ∀ (n : ℤ) (s : Text), (intText n ++ '%' :: s).takeWhile (· ≠ '%') = intText n ∧
      (intText n ++ '%' :: s).dropWhile (· ≠ '%') = '%' :: s := by
    intro n s
    have hall : ∀ c ∈ intText n, decide (c ≠ '%') = true := fun c hc =>
      decide_eq_true fun e => percent_notMem_intText n (e ▸ hc)
    constructor
    · rw [List.takeWhile_append_of_pos hall, List.takeWhile_cons_of_neg (by decide), List.append_nil]
    · rw [List.dropWhile_append_of_pos hall, List.dropWhile_cons_of_neg (by decide)]
  have hleft := congrArg (List.takeWhile (· ≠ '%')) h
  have hright := congrArg (List.dropWhile (· ≠ '%')) h
  rw [(hcut n s).1, (hcut m t).1] at hleft
  rw [(hcut n s).2, (hcut m t).2] at hright
  exact ⟨intText_injective hleft, (List.cons.inj hright).2⟩

theorem Shows.unique {mix : Text} {primary secondary primary' secondary' : ℤ}
    (h : Shows mix primary secondary) (h' : Shows mix primary' secondary') :
    primary = primary' ∧ secondary = secondary' := by
  obtain ⟨first, second, rfl⟩ := h
  obtain ⟨first', second', he⟩ := h'
  obtain ⟨hprimary, hrest⟩ := intText_percent_inj (List.cons.inj (List.cons.inj he).2).2
  have hlast := (List.cons.inj (List.cons.inj (List.cons.inj hrest).2).2).2
  exact ⟨hprimary, (intText_percent_inj hlast).1⟩

theorem shows_mixText (superLabels : Bool) (primary secondary : ℤ) :
    Shows (mixText superLabels primary secondary) primary secondary := by
  cases superLabels
  · exact ⟨'P', 'E', by simp [mixText]⟩
  · exact ⟨'S', 'P', by simp [mixText]⟩

theorem sharesAddUp_mixText (superLabels : Bool) (primary secondary : ℤ) :
    SharesAddUp (mixText superLabels primary secondary) ↔
      (0 ≤ primary ∧ primary ≤ 100) ∧ (0 ≤ secondary ∧ secondary ≤ 100) ∧
        primary + secondary = 100 := by
  constructor
  · rintro ⟨p, s, hshows, h⟩
    obtain ⟨rfl, rfl⟩ := hshows.unique (shows_mixText superLabels primary secondary)
    exact h
  · exact fun h => ⟨primary, secondary, shows_mixText superLabels primary secondary, h⟩

/-! ## Rounding a share and its complement -/

/-- The share is shown in 0..100, and it is no half, which both roundings would take up. -/
def RoundsWell (q : ℚ) : Prop := -1 / 2 < q ∧ q < 201 / 2 ∧ ∀ k : ℤ, q ≠ k + 1 / 2

theorem ne_half_of_between {q : ℚ} {n : ℤ} (hlow : n - 1 / 2 < q) (hhigh : q < n + 1 / 2) (k : ℤ) :
    q ≠ k + 1 / 2 := by
  rintro rfl
  have hbelow : ((n - 1 : ℤ) : ℚ) < k := by push_cast; linarith
  have habove : (k : ℚ) < (n : ℤ) := by linarith
  have hbelow' : n - 1 < k := by exact_mod_cast hbelow
  have habove' : k < n := by exact_mod_cast habove
  omega

theorem roundsWell_zero : RoundsWell 0 :=
  ⟨by norm_num, by norm_num, ne_half_of_between (n := 0) (by norm_num) (by norm_num)⟩

theorem llround_complement {q : ℚ} (h0 : 0 ≤ q) (h100 : q ≤ 100) :
    llround q + llround (100 - q) = 100 ↔ ∀ k : ℤ, q ≠ k + 1 / 2 := by
  have hsecond : llround (100 - q) = 101 - ⌈q + 1 / 2⌉ := by
    have hsum : 100 - q + 1 / 2 = ((101 : ℤ) : ℚ) + -(q + 1 / 2) := by push_cast; ring
    rw [llround_of_nonneg (by linarith), hsum, Int.floor_intCast_add, Int.floor_neg]
    ring
  have hrange : q + 1 / 2 ∉ Set.range ((↑) : ℤ → ℚ) ↔ ∀ k : ℤ, q ≠ k + 1 / 2 := by
    constructor
    · rintro h k rfl
      exact h ⟨k + 1, by push_cast; ring⟩
    · rintro h ⟨k, hk⟩
      exact h (k - 1) (by push_cast; linarith)
  rw [← hrange, ← Int.ceil_eq_floor_add_one_iff_notMem, hsecond, llround_of_nonneg h0]
  omega

/-- The two percentages of a share, halves away from zero. -/
theorem percentages_iff (q : ℚ) :
    ((0 ≤ llround q ∧ llround q ≤ 100) ∧
        (0 ≤ llround (max 0 (100 - q)) ∧ llround (max 0 (100 - q)) ≤ 100) ∧
        llround q + llround (max 0 (100 - q)) = 100) ↔ RoundsWell q := by
  rcases lt_or_ge q 0 with hneg | hnonneg
  · have hmax : max 0 (100 - q) = 100 - q := max_eq_right (by linarith)
    have hfirst : llround q = -⌊-q + 1 / 2⌋ := if_pos hneg
    rw [hmax, hfirst, llround_of_nonneg (by linarith : 0 ≤ 100 - q)]
    constructor
    · rintro ⟨⟨hlow, -⟩, -, -⟩
      have hhalf : -q + 1 / 2 < ((1 : ℤ) : ℚ) := Int.floor_lt.mp (by omega)
      push_cast at hhalf
      exact ⟨by linarith, by linarith,
        ne_half_of_between (n := 0) (by push_cast; linarith) (by push_cast; linarith)⟩
    · rintro ⟨hlow, -, -⟩
      have hzero : ⌊-q + 1 / 2⌋ = 0 := Int.floor_eq_iff.mpr ⟨by push_cast; linarith, by linarith⟩
      have hfull : ⌊100 - q + 1 / 2⌋ = 100 :=
        Int.floor_eq_iff.mpr ⟨by push_cast; linarith, by push_cast; linarith⟩
      omega
  · rcases le_or_gt q 100 with hle | hgt
    · have hmax : max 0 (100 - q) = 100 - q := max_eq_right (by linarith)
      have hcomplement := llround_complement hnonneg hle
      have hfirst := llround_nonneg hnonneg
      have hsecond := llround_nonneg (by linarith : 0 ≤ 100 - q)
      rw [hmax]
      constructor
      · rintro ⟨-, -, hsum⟩
        exact ⟨by linarith, by linarith, hcomplement.mp hsum⟩
      · rintro ⟨-, -, hhalf⟩
        have hsum := hcomplement.mpr hhalf
        omega
    · have hmax : max 0 (100 - q) = 0 := max_eq_left (by linarith)
      rw [hmax, llround_zero, llround_of_nonneg hnonneg]
      constructor
      · rintro ⟨⟨-, hhigh⟩, -, -⟩
        have hhalf : q + 1 / 2 < ((101 : ℤ) : ℚ) := Int.floor_lt.mp (by omega)
        push_cast at hhalf
        exact ⟨by linarith, by linarith,
          ne_half_of_between (n := 100) (by push_cast; linarith) (by push_cast; linarith)⟩
      · rintro ⟨-, hhigh, -⟩
        have hfull : ⌊q + 1 / 2⌋ = 100 :=
          Int.floor_eq_iff.mpr ⟨by push_cast; linarith, by push_cast; linarith⟩
        omega

/-! ## The condition on the columns -/

/-- What the columns say is a share that rounds well: a percentage, or two times of which the total is
positive. Without a share or a total there is nothing to round. -/
def ShareColumns.Fits : ShareColumns → Prop
  | .percent text => (atofWith unrounded text).isFinite = true ∧
      RoundsWell (atofWith unrounded text).value
  | .ratio primaryMs total => Double.lt 0 (atofWith unrounded total) = true →
      (atofWith unrounded primaryMs).isFinite = true ∧
        ((atofWith unrounded total).isFinite = true →
          RoundsWell ((atofWith unrounded primaryMs).value * 100 / (atofWith unrounded total).value))
  | .missing => True

theorem value_hundred : Double.value 100 = 100 := Double.value_ofNat 100

theorem value_zero : Double.value 0 = 0 := (Double.value_ofNat 0).trans Nat.cast_zero

theorem primaryShareWith_fits (primaryMs total : Double) :
    ((primaryShareWith unrounded primaryMs total).isFinite = true ∧
        RoundsWell (primaryShareWith unrounded primaryMs total).value) ↔
      (Double.lt 0 total = true → primaryMs.isFinite = true ∧
        (total.isFinite = true → RoundsWell (primaryMs.value * 100 / total.value))) := by
  unfold primaryShareWith
  cases hpositive : Double.lt 0 total with
  | false => exact iff_of_true ⟨rfl, roundsWell_zero⟩ fun h => nomatch h
  | true =>
    rw [if_pos rfl, imp_iff_right rfl]
    cases hms : primaryMs.isFinite with
    | true =>
      obtain ⟨hfinite, hvalue⟩ := Double.value_mulWith_unrounded (b := 100) hms rfl
      rw [and_iff_right rfl]
      cases total with
      | nan => cases hpositive
      | inf negative =>
        have hzero : ∃ s, Double.divWith unrounded (Double.mulWith unrounded primaryMs 100)
            (.inf negative) = .finite s 0 := by
          cases hmul : Double.mulWith unrounded primaryMs 100 with
          | finite s x => exact ⟨_, rfl⟩
          | _ =>
            rw [hmul] at hfinite
            cases hfinite
        obtain ⟨s, hs⟩ := hzero
        rw [hs]
        refine iff_of_true ⟨rfl, ?_⟩ fun h => nomatch h
        cases s
        · exact roundsWell_zero
        · simpa [Double.value] using roundsWell_zero
      | finite negative magnitude =>
        have hlt : (0 : ℚ) < Double.value (.finite negative magnitude) := by
          have h := of_decide_eq_true hpositive
          simpa [Double.value] using h
        obtain ⟨hdiv, hshare⟩ := Double.value_divWith_unrounded hfinite rfl hlt.ne'
        rw [hshare, hvalue, value_hundred, and_iff_right hdiv]
        exact (imp_iff_right rfl).symm
    | false =>
      refine iff_of_false ?_ fun h => nomatch h.1
      rintro ⟨hfinite, -⟩
      cases primaryMs with
      | finite s x => cases hms
      | nan => cases hfinite
      | inf s =>
        cases total with
        | finite t y => cases hfinite
        | nan => cases hfinite
        | inf t => cases hfinite

theorem shareWith_fits (columns : ShareColumns) :
    ((columns.shareWith unrounded).isFinite = true ∧
      RoundsWell (columns.shareWith unrounded).value) ↔ columns.Fits := by
  cases columns with
  | percent text => exact Iff.rfl
  | ratio primaryMs total => exact primaryShareWith_fits _ _
  | missing => exact iff_of_true ⟨rfl, roundsWell_zero⟩ trivial

/-! ## What is shown -/

theorem roundToInt_finite {d : Double} (h : d.isFinite = true) :
    roundToInt d = clamp (llround d.value) (-2 ^ 31) (2 ^ 31 - 1) := by
  cases d with
  | finite s x => rfl
  | _ => cases h

theorem value_neg (d : Double) : d.neg.isFinite = d.isFinite ∧ d.neg.value = -d.value := by
  cases d with
  | finite s x => cases s <;> simp [Double.neg, Double.isFinite, Double.value]
  | _ => simp [Double.neg, Double.isFinite, Double.value]

/-- The secondary share of a finite one. -/
theorem secondaryWith_unrounded {primary : Double} (h : primary.isFinite = true) :
    (secondaryWith unrounded primary).isFinite = true ∧
      (secondaryWith unrounded primary).value = max 0 (100 - primary.value) := by
  have hneg := value_neg primary
  have hfinite : (Double.addWith unrounded 100 primary.neg).isFinite = true := by
    rw [addWith_unrounded]
    exact Double.isFinite_add rfl (hneg.1.trans h)
  have hvalue : (Double.addWith unrounded 100 primary.neg).value = 100 - primary.value := by
    rw [addWith_unrounded, Double.value_add rfl (hneg.1.trans h), hneg.2,
      value_hundred, sub_eq_add_neg]
  unfold secondaryWith
  dsimp only
  rw [Double.lt_eq_value rfl hfinite, value_zero, hvalue]
  split
  · rename_i hpos
    exact ⟨hfinite, by rw [hvalue, max_eq_right (of_decide_eq_true hpos).le]⟩
  · rename_i hpos
    have hle : 100 - primary.value ≤ 0 := le_of_not_gt fun hlt => hpos (decide_eq_true hlt)
    exact ⟨rfl, by rw [max_eq_left hle, value_zero]⟩

theorem clamp_percentages (p s : ℤ) :
    ((0 ≤ clamp p (-2 ^ 31) (2 ^ 31 - 1) ∧ clamp p (-2 ^ 31) (2 ^ 31 - 1) ≤ 100) ∧
        (0 ≤ clamp s (-2 ^ 31) (2 ^ 31 - 1) ∧ clamp s (-2 ^ 31) (2 ^ 31 - 1) ≤ 100) ∧
        clamp p (-2 ^ 31) (2 ^ 31 - 1) + clamp s (-2 ^ 31) (2 ^ 31 - 1) = 100) ↔
      (0 ≤ p ∧ p ≤ 100) ∧ (0 ≤ s ∧ s ≤ 100) ∧ p + s = 100 := by
  unfold clamp
  split_ifs <;> omega

theorem sharesAddUp_iff (hasSuper : Bool) (row : TreeMap Text Text) :
    SharesAddUp (exactMixText hasSuper row) ↔ (shareColumns row).1.Fits := by
  unfold exactMixText coreMixTextWith
  rw [sharesAddUp_mixText, ← shareWith_fits]
  generalize (shareColumns row).1.shareWith unrounded = primary
  cases hfinite : primary.isFinite with
  | true =>
    obtain ⟨hsecond, hvalue⟩ := secondaryWith_unrounded hfinite
    rw [roundToInt_finite hfinite, roundToInt_finite hsecond, hvalue, clamp_percentages,
      percentages_iff, and_iff_right rfl]
  | false =>
    refine iff_of_false ?_ fun h => nomatch h.1
    cases primary with
    | finite s x => cases hfinite
    | nan =>
      rintro ⟨-, -, hsum⟩
      have hsecond : roundToInt (secondaryWith unrounded .nan) = 0 := by
        rw [show secondaryWith unrounded .nan = 0 from rfl, roundToInt_finite rfl, value_zero,
          llround_zero]
        rfl
      rw [hsecond] at hsum
      exact absurd hsum (by decide)
    | inf negative =>
      rintro ⟨⟨hlow, hhigh⟩, -⟩
      cases negative
      · exact absurd hhigh (by decide)
      · exact absurd hlow (by decide)

/-- Of every text, the core mix of a process is the one of its last row, and its two percentages lie
in 0..100 and add up to 100 exactly when the share columns of that row fit. -/
theorem core_mix_shares_iff (text : Text) (hasSuper : Bool) (pid : ℤ) :
    (parseAmpData text hasSuper).coreMix[pid]? =
        (lastRow text pid).map (coreMixTextWith Double.roundMagnitude hasSuper) ∧
      ∀ row, lastRow text pid = some row →
        (SharesAddUp (exactMixText hasSuper row) ↔ (shareColumns row).1.Fits) := by
  refine ⟨?_, fun row _ => sharesAddUp_iff hasSuper row⟩
  rw [← coreMixText_eq]
  exact coreMix_parseAmpData text hasSuper pid

/-- Rows with a half, with more than the total and with less than nothing. -/
def noisyShares : Text :=
  str "*** Running tasks ***\nName  ID  CPU ms/s  PCPU ms/s\nclang  321  80.0  10.0\nld  322  10.0  13.0\nar  323  10.0  -2.0\n"

theorem shares_do_not_add_up :
    ([321, 322, 323] : List ℤ).map (fun pid => (parseAmpData noisyShares false).coreMix[pid]?) =
        [some (str "P:13% E:88%"), some (str "P:130% E:0%"), some (str "P:-20% E:120%")] ∧
      ([321, 322, 323] : List ℤ).map (fun pid => (lastRow noisyShares pid).map (exactMixText false)) =
        [some (str "P:13% E:88%"), some (str "P:130% E:0%"), some (str "P:-20% E:120%")] ∧
      ¬ SharesAddUp (str "P:13% E:88%") ∧ ¬ SharesAddUp (str "P:130% E:0%") ∧
      ¬ SharesAddUp (str "P:-20% E:120%") := by
  have hhalf : str "P:13% E:88%" = mixText false 13 88 := by decide +kernel
  have hmore : str "P:130% E:0%" = mixText false 130 0 := by decide +kernel
  have hless : str "P:-20% E:120%" = mixText false (-20) 120 := by decide +kernel
  rw [hhalf, hmore, hless, sharesAddUp_mixText, sharesAddUp_mixText, sharesAddUp_mixText]
  decide +kernel

theorem core_mix_shares_iff_noisyShares :
    (parseAmpData noisyShares false).coreMix[(321 : ℤ)]? =
        (lastRow noisyShares 321).map (coreMixTextWith Double.roundMagnitude false) ∧
      ∃ row, lastRow noisyShares 321 = some row ∧
        (SharesAddUp (exactMixText false row) ↔ (shareColumns row).1.Fits) := by
  have hsome : (lastRow noisyShares 321).isSome = true := by decide +kernel
  obtain ⟨row, hrow⟩ := Option.isSome_iff_exists.mp hsome
  obtain ⟨hmix, hfits⟩ := core_mix_shares_iff noisyShares false 321
  exact ⟨hmix, row, hrow, hfits row hrow⟩

end Mtop
