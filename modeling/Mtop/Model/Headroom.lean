import Mtop.Model.RiskOrder

/-! The estimated headroom against the memory of the machine: the sums are exact, and the credit for
reclaimable pages is what takes the estimate above the total. -/
namespace Mtop
set_option autoImplicit false

/-- The page categories are parts of the memory, and apart from the purgeable pages disjoint ones. -/
structure DisjointPages (s : SystemSnapshot) : Prop where
  total : s.memoryTotalBytes.toNat < 2 ^ 63
  pages : s.memoryWiredBytes.toNat + s.memoryActiveBytes.toNat + s.memoryCompressedBytes.toNat +
    s.memoryInactiveBytes.toNat + s.memorySpeculativeBytes.toNat ≤ s.memoryTotalBytes.toNat
  purgeable : s.memoryPurgeableBytes.toNat ≤ s.memoryTotalBytes.toNat

/-- The pages in use. -/
def usedBytes (s : SystemSnapshot) : ℕ :=
  s.memoryWiredBytes.toNat + s.memoryActiveBytes.toNat + s.memoryCompressedBytes.toNat

/-- The pages that can be reclaimed. -/
def reclaimable (s : SystemSnapshot) : ℕ :=
  s.memoryInactiveBytes.toNat + s.memorySpeculativeBytes.toNat + s.memoryPurgeableBytes.toNat

/-- The reclaimable pages, up to a fifth of the memory. -/
def creditBytes (s : SystemSnapshot) : ℕ :=
  min (reclaimable s) (s.memoryTotalBytes.toNat / 100 * 20)

/-- No sum over the counters wraps. -/
structure SumsExact (s : SystemSnapshot) : Prop where
  reclaimable : (reclaimableBytes s).toNat = reclaimable s
  used : (strictUsed s).toNat = usedBytes s
  headroom : (estimatedHeadroom s).toNat =
    s.memoryTotalBytes.toNat - usedBytes s + creditBytes s

variable {s : SystemSnapshot}

theorem DisjointPages.reclaimable (h : DisjointPages s) :
    (reclaimableBytes s).toNat = reclaimable s := by
  obtain ⟨htotal, hpages, hpurgeable⟩ := h
  have hfirst : (s.memoryInactiveBytes + s.memorySpeculativeBytes).toNat =
      s.memoryInactiveBytes.toNat + s.memorySpeculativeBytes.toNat := toNat_add_of_lt (by omega)
  unfold reclaimableBytes Mtop.reclaimable
  rw [toNat_add_of_lt (by omega), hfirst]

theorem DisjointPages.used (h : DisjointPages s) : (strictUsed s).toNat = usedBytes s := by
  obtain ⟨htotal, hpages, -⟩ := h
  have hfirst : (s.memoryWiredBytes + s.memoryActiveBytes).toNat =
      s.memoryWiredBytes.toNat + s.memoryActiveBytes.toNat := toNat_add_of_lt (by omega)
  unfold strictUsed usedBytes
  rw [toNat_add_of_lt (by omega), hfirst]

theorem DisjointPages.credit (h : DisjointPages s) : (reclaimCredit s).toNat = creditBytes s := by
  have htotal := h.total
  have hpercent : (percentOf s.memoryTotalBytes 20).toNat = s.memoryTotalBytes.toNat / 100 * 20 := by
    show (s.memoryTotalBytes.toNat / 100 * 20) % 2 ^ 64 = _
    exact Nat.mod_eq_of_lt (by omega)
  unfold reclaimCredit creditBytes
  rw [toNat_min, h.reclaimable, hpercent]

/-- The headroom is the total less the pages in use, with the credit on top. -/
theorem DisjointPages.headroom (h : DisjointPages s) :
    (estimatedHeadroom s).toNat = s.memoryTotalBytes.toNat - usedBytes s + creditBytes s := by
  have htotal := h.total
  have hused := h.used
  have hcredit := h.credit
  have hbound : creditBytes s ≤ s.memoryTotalBytes.toNat / 100 * 20 := min_le_right _ _
  unfold estimatedHeadroom
  split
  · rename_i hless
    have hsub : (s.memoryTotalBytes - strictUsed s).toNat =
        s.memoryTotalBytes.toNat - usedBytes s := by
      rw [UInt64.toNat_sub_of_le _ _ (UInt64.le_of_lt hless), hused]
    rw [toNat_add_of_lt (by omega), hsub, hcredit]
  · rename_i hless
    have hle := UInt64.le_iff_toNat_le.mp (UInt64.not_lt.mp hless)
    rw [hused] at hle
    rw [hcredit, Nat.sub_eq_zero_of_le hle, Nat.zero_add]

/-- No sum wraps, and the headroom stays within the memory exactly when there are no totals to read or
the credit is at most what is in use. -/
theorem headroom_le_total_iff (h : DisjointPages s) (history : List SystemSnapshot)
    (workloads : List WorkloadSnapshot) :
    SumsExact s ∧ ((deriveMemoryRisk s history workloads).estimatedHeadroomBytes ≤
      s.memoryTotalBytes ↔ TotalsUnavailable s ∨ creditBytes s ≤ usedBytes s) := by
  refine ⟨⟨h.reclaimable, h.used, h.headroom⟩, ?_⟩
  have hfigure : (deriveMemoryRisk s history workloads).estimatedHeadroomBytes =
      if TotalsUnavailable s then 0 else estimatedHeadroom s := by
    rw [deriveMemoryRisk_eq]
    rfl
  rw [hfigure]
  split
  · rename_i hnone
    exact iff_of_true (UInt64.zero_le) (.inl hnone)
  · rename_i hsome
    have hpages := h.pages
    have hbound : creditBytes s ≤ s.memoryTotalBytes.toNat / 100 * 20 := min_le_right _ _
    rw [or_iff_right hsome, UInt64.le_iff_toNat_le, h.headroom]
    unfold usedBytes
    omega

/-- A machine of 16 GiB with 2 GiB wired and the rest inactive. -/
def idleMachine : SystemSnapshot :=
  { memoryTotalBytes := 17179869184
    memoryUsedBytes := 2147483648
    memoryWiredBytes := 2147483648
    memoryInactiveBytes := 15032385536 }

theorem idleMachine_disjoint : DisjointPages idleMachine := ⟨by decide, by decide, by decide⟩

/-- A fifth of it is counted twice. -/
theorem headroom_exceeds_total :
    DisjointPages idleMachine ∧
      idleMachine.memoryTotalBytes < (deriveMemoryRisk idleMachine [] []).estimatedHeadroomBytes :=
  ⟨idleMachine_disjoint, by decide⟩

theorem headroom_le_total_iff_idleMachine :
    SumsExact idleMachine ∧ ((deriveMemoryRisk idleMachine [] []).estimatedHeadroomBytes ≤
      idleMachine.memoryTotalBytes ↔
        TotalsUnavailable idleMachine ∨ creditBytes idleMachine ≤ usedBytes idleMachine) :=
  headroom_le_total_iff idleMachine_disjoint [] []

end Mtop
