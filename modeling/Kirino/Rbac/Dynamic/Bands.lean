import Kirino.Rbac.Dynamic.Arbiter
/-!
# Bands — when less risk never means less autonomy

A policy maps a risk to the level of the band that it falls in.  Where the bands partition the risks, less risk means at
least as much autonomy exactly when the bands stand in the order of the levels, the most permissive lowest
(`antitone_iff_bandsDescend`).  What `set_policy` accepts need not stand so: each band is checked by itself.
-/
namespace Kirino
namespace Rbac
namespace Dynamic

/-- The place of a level among the levels, as its discriminant gives it. -/
def AutonomyLevel.rank : AutonomyLevel → Nat
  | .l0Frozen => 0
  | .l1Assisted => 1
  | .l2SemiAutonomous => 2
  | .l3Conditional => 3
  | .l4FullAutonomy => 4

theorem AutonomyLevel.mem_ascending (level : AutonomyLevel) : level ∈ AutonomyLevel.ascending := by
  cases level <;> decide

namespace DynamicPolicy

variable {policy : DynamicPolicy} {level level' : AutonomyLevel} {band band' : ℚ × ℚ} {risk : ℚ}

/-- The risk falls in the band of the level. -/
def InBand (policy : DynamicPolicy) (level : AutonomyLevel) (risk : ℚ) : Prop :=
  ∃ band, policy.autonomyThresholds level = some band ∧ band.1 ≤ risk ∧ risk < band.2

/-- The bands cover the risks from 0 to 1 and do not overlap there. -/
def Partitions (policy : DynamicPolicy) : Prop := ∀ risk, 0 ≤ risk → risk ≤ 1 → ∃! level, policy.InBand level risk

/-- **Less risk is at least as much autonomy.** -/
def Antitone (policy : DynamicPolicy) : Prop := ∀ risk' risk, 0 ≤ risk' → risk' ≤ risk → risk ≤ 1 →
  (policy.mapToLevel risk).rank ≤ (policy.mapToLevel risk').rank

/-- Among the bands that reach down to 1, a more permissive level's begins lower. -/
def BandsDescend (policy : DynamicPolicy) : Prop := ∀ level level' band band',
  policy.autonomyThresholds level = some band → policy.autonomyThresholds level' = some band' →
    band.1 ≤ 1 → band'.1 ≤ 1 → level.rank < level'.rank → band'.1 < band.1

theorem mem_bands : (level, band) ∈ policy.bands ↔ policy.autonomyThresholds level = some band := by
  simp [bands, List.mem_filterMap, AutonomyLevel.mem_ascending]

/-- A risk is mapped to a level in whose band it falls, if there is one. -/
theorem inBand_mapToLevel (h : policy.InBand level risk) : policy.InBand (policy.mapToLevel risk) risk := by
  obtain ⟨band, hband, hmin, hmax⟩ := h
  rw [mapToLevel]
  cases hf : policy.bands.reverse.find? (fun band => decide (band.2.1 ≤ risk ∧ risk < band.2.2)) with
  | none =>
    rw [List.find?_eq_none] at hf
    have hnot := hf (level, band) (List.mem_reverse.2 (mem_bands.2 hband))
    exact absurd (decide_eq_true ⟨hmin, hmax⟩) hnot
  | some found =>
    have hmem := mem_bands.1 (List.mem_reverse.1 (List.mem_of_find?_eq_some hf))
    have hin := List.find?_some hf
    simp only [decide_eq_true_eq] at hin
    exact ⟨found.2, hmem, hin⟩

/-- In a partition the level of a risk is the one whose band it falls in. -/
theorem Partitions.mapToLevel_eq (hpart : policy.Partitions) (h0 : 0 ≤ risk) (h1 : risk ≤ 1)
    (h : policy.InBand level risk) : policy.mapToLevel risk = level :=
  (hpart risk h0 h1).unique (inBand_mapToLevel h) h

theorem Partitions.inBand (hpart : policy.Partitions) (h0 : 0 ≤ risk) (h1 : risk ≤ 1) :
    policy.InBand (policy.mapToLevel risk) risk := by
  obtain ⟨level, h, -⟩ := hpart risk h0 h1
  exact inBand_mapToLevel h

/-- A checked band is not empty and does not begin below 0. -/
theorem validateBand_eq_ok (h : policy.validateBand (level, band) = .ok ()) : 0 ≤ band.1 ∧ band.1 < band.2 := by
  unfold validateBand at h
  split_ifs at h with horder hrange
  constructor
  · exact not_lt.1 (fun hneg => hrange (Or.inl hneg))
  · exact not_le.1 horder

theorem band_of_validate (h : policy.validate = .ok ()) (hband : policy.autonomyThresholds level = some band) :
    0 ≤ band.1 ∧ band.1 < band.2 :=
  validateBand_eq_ok ((Lib.forM_eq_ok_iff _).1 (loops_of_validate h).2 (level, band) (mem_bands.2 hband))

/-- **In a partition, less risk is at least as much autonomy exactly when the bands stand in the order of the levels.** -/
theorem antitone_iff_bandsDescend (hvalid : policy.validate = .ok ()) (hpart : policy.Partitions) :
    policy.Antitone ↔ policy.BandsDescend := by
  constructor
  · intro hanti level level' band band' hband hband' h1 h1' hrank
    obtain ⟨h0, hlt⟩ := band_of_validate hvalid hband
    obtain ⟨h0', hlt'⟩ := band_of_validate hvalid hband'
    -- the two bands are met at their own beginnings
    have hlevel := hpart.mapToLevel_eq h0 h1 ⟨band, hband, le_refl _, hlt⟩
    have hlevel' := hpart.mapToLevel_eq h0' h1' ⟨band', hband', le_refl _, hlt'⟩
    by_contra hle
    have hmono := hanti band.1 band'.1 h0 (not_lt.1 hle) h1'
    rw [hlevel, hlevel'] at hmono
    omega
  · intro hdesc risk' risk h0 hle h1
    obtain ⟨band, hband, hmin, hmax⟩ := hpart.inBand (le_trans h0 hle) h1
    obtain ⟨band', hband', hmin', hmax'⟩ := hpart.inBand h0 (le_trans hle h1)
    by_contra hrank
    -- the lower risk would fall in the band of the higher one as well
    have hbegin := hdesc _ _ band' band hband' hband (le_trans hmin' (le_trans hle h1)) (le_trans hmin h1) (not_le.1 hrank)
    have hin : policy.InBand (policy.mapToLevel risk) risk' :=
      ⟨band, hband, le_trans (le_of_lt hbegin) hmin', lt_of_le_of_lt hle hmax⟩
    have heq := hpart.mapToLevel_eq h0 (le_trans hle h1) hin
    exact hrank (by rw [heq])

end DynamicPolicy

/-- The arbiter allows at the two highest levels. -/
theorem scoredVerdict_allowed_iff (policy : DynamicPolicy) (request : ActionRequest) (risk : RiskScore) (now : Int) :
    (scoredVerdict policy request risk now).allowed = true ↔ 3 ≤ (policy.mapToLevel risk.value).rank := by
  simp only [scoredVerdict, decide_eq_true_eq]
  cases policy.mapToLevel risk.value <;> simp [AutonomyLevel.rank]

theorem policySet_ok_iff (w : ArbiterState) (policy : DynamicPolicy) :
    (ArbiterOp.perform w (.setPolicy policy)).2 = some (.policySet (.ok ())) ↔ policy.validate = .ok () := by
  simp only [ArbiterOp.perform]
  cases policy.validate with
  | error e => simp
  | ok u => simp

/-- **Accepted policies**: where the bands partition the risks, less risk is at least as much autonomy exactly when the
bands stand in the order of the levels; then no risk is denied below one that is allowed. -/
theorem setPolicy_antitone_iff (w : ArbiterState) (policy : DynamicPolicy)
    (haccept : (ArbiterOp.perform w (.setPolicy policy)).2 = some (.policySet (.ok ()))) (hpart : policy.Partitions) :
    (policy.Antitone ↔ policy.BandsDescend) ∧
      (policy.BandsDescend → ∀ (request request' : ActionRequest) (risk risk' : RiskScore) (now now' : Int),
        0 ≤ risk'.value → risk'.value ≤ risk.value → risk.value ≤ 1 →
          (scoredVerdict policy request risk now).allowed = true →
            (scoredVerdict policy request' risk' now').allowed = true) := by
  have hiff := DynamicPolicy.antitone_iff_bandsDescend ((policySet_ok_iff w policy).1 haccept) hpart
  refine ⟨hiff, ?_⟩
  intro hdesc request request' risk risk' now now' h0 hle h1 hallowed
  rw [scoredVerdict_allowed_iff] at hallowed ⊢
  exact le_trans hallowed (hiff.2 hdesc risk'.value risk.value h0 hle h1)

/-- Two bands that meet at one half. -/
def twoBandPolicy (low high : AutonomyLevel) : DynamicPolicy :=
  { defaultDynamicPolicy with
    autonomyThresholds := fun level =>
      if level = low then some (0, 1 / 2) else if level = high then some (1 / 2, 101 / 100) else none }

theorem twoBandPolicy_band {low high level : AutonomyLevel} {band : ℚ × ℚ}
    (h : (twoBandPolicy low high).autonomyThresholds level = some band) :
    level = low ∧ band = (0, 1 / 2) ∨ level = high ∧ band = (1 / 2, 101 / 100) := by
  simp only [twoBandPolicy] at h
  split_ifs at h with hlow hhigh
  · exact Or.inl ⟨hlow, (Option.some.inj h).symm⟩
  · exact Or.inr ⟨hhigh, (Option.some.inj h).symm⟩

theorem twoBandPolicy_partitions {low high : AutonomyLevel} (hne : low ≠ high) :
    (twoBandPolicy low high).Partitions := by
  intro risk h0 h1
  have hlow : (twoBandPolicy low high).InBand low risk ↔ risk < 1 / 2 := by
    simp [DynamicPolicy.InBand, twoBandPolicy, h0]
  have hhigh : (twoBandPolicy low high).InBand high risk ↔ 1 / 2 ≤ risk := by
    have h1' : risk < 101 / 100 := lt_of_le_of_lt h1 (by norm_num)
    simp [DynamicPolicy.InBand, twoBandPolicy, hne.symm, h1']
  have hother : ∀ level, (twoBandPolicy low high).InBand level risk → level = low ∨ level = high := by
    rintro level ⟨band, hband, -⟩
    exact (twoBandPolicy_band hband).imp And.left And.left
  rcases lt_or_ge risk (1 / 2) with hlt | hge
  · refine ⟨low, hlow.2 hlt, ?_⟩
    intro level hin
    exact (hother level hin).resolve_right (by rintro rfl; exact not_le.2 hlt (hhigh.1 hin))
  · refine ⟨high, hhigh.2 hge, ?_⟩
    intro level hin
    exact (hother level hin).resolve_left (by rintro rfl; exact not_lt.2 hge (hlow.1 hin))

/-- The lower band allows and the higher one denies. -/
theorem setPolicy_antitone_iff_twoBand : (twoBandPolicy .l4FullAutonomy .l0Frozen).Antitone := by
  refine (setPolicy_antitone_iff approvingState _ ?_ (twoBandPolicy_partitions (by decide))).1.2 ?_
  · decide +kernel
  · intro level level' band band' hband hband' _ _ hrank
    rcases twoBandPolicy_band hband with ⟨rfl, rfl⟩ | ⟨rfl, rfl⟩
    · rcases twoBandPolicy_band hband' with ⟨rfl, rfl⟩ | ⟨rfl, rfl⟩
      · exact absurd hrank (lt_irrefl _)
      · exact absurd hrank (by decide)
    · rcases twoBandPolicy_band hband' with ⟨rfl, rfl⟩ | ⟨rfl, rfl⟩
      · norm_num
      · exact absurd hrank (lt_irrefl _)

/-- The lower band denies and the higher one allows, and the policy is accepted. -/
theorem setPolicy_not_antitone : ¬ ∀ (w : ArbiterState) (policy : DynamicPolicy),
    (ArbiterOp.perform w (.setPolicy policy)).2 = some (.policySet (.ok ())) → policy.Partitions → policy.Antitone := by
  intro h
  have hanti := h approvingState (twoBandPolicy .l0Frozen .l4FullAutonomy) (by decide +kernel)
    (twoBandPolicy_partitions (by decide)) 0 1 (by decide) (by decide) (by decide)
  revert hanti
  decide +kernel

end Dynamic
end Rbac
end Kirino
