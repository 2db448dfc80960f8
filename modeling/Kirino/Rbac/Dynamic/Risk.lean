import Mathlib.Tactic.FieldSimp
import Mathlib.Tactic.Ring
import Kirino.Rbac.Dynamic.Domain
import Kirino.Rbac.Dynamic.Policy
import Kirino.Rbac.Dynamic.Trust
/-!
# Risk — the score of a request, and what a violation does to it (`rbac/dynamic/arbiter.rs`)

The five dimensions and their weighted sum.  Less trust is never less risk (`riskScore_value_mono`), so a violation earns
nothing as long as it does not raise the effective trust: that is so exactly when its penalty covers the confidence that
one more piece of evidence brings (`earnsNothing_iff`).
-/
namespace Kirino
namespace Rbac
namespace Dynamic

open TrustScore (confidenceOf confidenceOf_nonneg nextCount penalty)

def delegatorWeight : DelegatorType → ℚ
  | .human => 0
  | .agent => 5 / 100
  | .subAgent => 15 / 100
  | .externalSystem => 30 / 100
  | .scheduler => 2 / 100

/-- The penalty for missing trust, raised below the floor of the current task domain. -/
def trustPenalty (trust : TrustScore) (scope : Option DomainScope) : ℚ :=
  let base := clamp (1 - trust.weighted) 0 1
  match scope with
  | none => base
  | some scope =>
    let floor := scope.currentTaskDomain.trustFloor
    if 0 < floor ∧ trust.weighted < floor then min (base + clamp (floor - trust.weighted) 0 1) 1 else base

def domainMismatch (request : ActionRequest) : Option DomainScope → ℚ
  | none => 0
  | some scope => (scope.evaluate request.category request.resourcePath).excessWeight

/-- The weighted sum of the dimensions. -/
def DynamicPolicy.total (policy : DynamicPolicy) (scores : SubScores) : RiskScore where
  value := clamp (scores.delegatorWeight * policy.dimensionWeights[0] + scores.trustPenalty * policy.dimensionWeights[1] +
    scores.sensitivity * policy.dimensionWeights[2] + scores.domainMismatch * policy.dimensionWeights[3] +
    scores.anomaly * policy.dimensionWeights[4]) 0 1
  subScores := scores

def subScoresOf (request : ActionRequest) (trust : TrustScore) (scope : Option DomainScope) (anomaly : ℚ) : SubScores where
  delegatorWeight := delegatorWeight request.delegator.delegatorType
  trustPenalty := trustPenalty trust scope
  sensitivity := request.category.baseWeight
  domainMismatch := domainMismatch request scope
  anomaly := anomaly

/-- The risk of a request, from what the arbiter reads. -/
def riskScore (policy : DynamicPolicy) (request : ActionRequest) (trust : TrustScore) (scope : Option DomainScope)
    (anomaly : ℚ) : RiskScore := policy.total (subScoresOf request trust scope anomaly)

/-! ## Less trust is no less risk -/

theorem clamp_mono {x y : ℚ} (h : x ≤ y) : clamp x 0 1 ≤ clamp y 0 1 := max_le_max le_rfl (min_le_min_right _ h)

/-- **Less effective trust is no less penalty.** -/
theorem trustPenalty_anti {trust trust' : TrustScore} (h : trust'.weighted ≤ trust.weighted) (scope : Option DomainScope) :
    trustPenalty trust scope ≤ trustPenalty trust' scope := by
  have hbase : clamp (1 - trust.weighted) 0 1 ≤ clamp (1 - trust'.weighted) 0 1 := clamp_mono (by linarith)
  unfold trustPenalty
  cases scope with
  | none => exact hbase
  | some scope =>
    dsimp only
    generalize scope.currentTaskDomain.trustFloor = floor
    by_cases hbelow : 0 < floor ∧ trust.weighted < floor
    · have hbelow' : 0 < floor ∧ trust'.weighted < floor := ⟨hbelow.1, h.trans_lt hbelow.2⟩
      rw [if_pos hbelow, if_pos hbelow']
      exact min_le_min_right _ (add_le_add hbase (clamp_mono (by linarith)))
    · rw [if_neg hbelow]
      split
      · have hmissing := (TrustScore.clamp_mem (floor - trust'.weighted)).1
        exact le_min (by linarith) ((TrustScore.clamp_mem _).2)
      · exact hbase

/-- **Less effective trust is no less risk**, under a weight that is not negative. -/
theorem riskScore_value_mono {policy : DynamicPolicy} (hweight : 0 ≤ policy.dimensionWeights[1]) {trust trust' : TrustScore}
    (h : trust'.weighted ≤ trust.weighted) (request : ActionRequest) (scope : Option DomainScope) (anomaly : ℚ) :
    (riskScore policy request trust scope anomaly).value ≤ (riskScore policy request trust' scope anomaly).value := by
  refine clamp_mono ?_
  have hpenalty := mul_le_mul_of_nonneg_right (trustPenalty_anti h scope) hweight
  simp only [subScoresOf]
  linarith

/-! ## Violations -/

/-- The share of full confidence that so many pieces of evidence reach. -/
def evidenceShare (evidenceCount : Nat) : ℚ := min (evidenceCount / (100 + evidenceCount)) (99 / 100)

theorem confidenceOf_eq_evidenceShare (evidenceCount : Nat) : confidenceOf evidenceCount = evidenceShare evidenceCount := by
  unfold confidenceOf evidenceShare
  congr 1
  have hpos : (0 : ℚ) < 100 + evidenceCount := by positivity
  have hpos' : (0 : ℚ) < 1 + evidenceCount / 100 := by positivity
  field_simp
  ring

/-- What the severity takes off the value is, as a share of it, at least the growth of the confidence by one more piece of
evidence. -/
def PenaltyCovers (trust : TrustScore) (severity : ℚ) : Prop :=
  trust.value * (evidenceShare (nextCount trust.evidenceCount) - trust.confidence) ≤
    penalty severity * evidenceShare (nextCount trust.evidenceCount)

instance (trust : TrustScore) (severity : ℚ) : Decidable (PenaltyCovers trust severity) :=
  inferInstanceAs (Decidable (_ ≤ _))

/-- The outcome does not raise the effective trust, and lowers neither the penalty nor the risk of any next request. -/
structure EarnsNothing (trust trust' : TrustScore) : Prop where
  weighted : trust'.weighted ≤ trust.weighted
  penalty : ∀ scope, trustPenalty trust scope ≤ trustPenalty trust' scope
  risk : ∀ (policy : DynamicPolicy) request scope anomaly, 0 ≤ policy.dimensionWeights[1] →
    (riskScore policy request trust scope anomaly).value ≤ (riskScore policy request trust' scope anomaly).value

theorem earnsNothing_of_weighted {trust trust' : TrustScore} (h : trust'.weighted ≤ trust.weighted) :
    EarnsNothing trust trust' where
  weighted := h
  penalty := trustPenalty_anti h
  risk _ request scope anomaly hweight := riskScore_value_mono hweight h request scope anomaly

/-- **A violation raises no effective trust exactly when its penalty covers the confidence it brings.** -/
theorem weighted_onPolicyViolation_le_iff {trust : TrustScore} (h : 0 ≤ trust.weighted) (severity : ℚ) (now : Int) :
    (trust.onPolicyViolation severity now).weighted ≤ trust.weighted ↔ PenaltyCovers trust severity := by
  unfold TrustScore.onPolicyViolation PenaltyCovers
  unfold TrustScore.weighted at h ⊢
  dsimp only
  rw [← confidenceOf_eq_evidenceShare]
  have hK := confidenceOf_nonneg (nextCount trust.evidenceCount)
  generalize confidenceOf (nextCount trust.evidenceCount) = K at hK ⊢
  by_cases hover : trust.value ≤ penalty severity
  · -- the penalty takes the whole value
    have hzero : max (trust.value - penalty severity) 0 = 0 := max_eq_right (by linarith)
    have hcovers : trust.value * K ≤ penalty severity * K := mul_le_mul_of_nonneg_right hover hK
    rw [hzero, zero_mul]
    exact ⟨fun _ => by linarith, fun _ => h⟩
  · have hrest : max (trust.value - penalty severity) 0 = trust.value - penalty severity := max_eq_left (by linarith)
    rw [hrest, sub_mul, mul_sub]
    constructor <;> intro hle <;> linarith

theorem penaltyCovers_evidenced_iff {trust : TrustScore} (hconfidence : trust.confidence = evidenceShare trust.evidenceCount)
    (hcap : trust.evidenceCount + 1 ≤ 9900) (severity : ℚ) : PenaltyCovers trust severity ↔
      100 * trust.value ≤ penalty severity * ((trust.evidenceCount + 1) * (trust.evidenceCount + 100)) := by
  have hnext : nextCount trust.evidenceCount = trust.evidenceCount + 1 := Nat.mod_eq_of_lt (by omega)
  have hshare : ∀ n : Nat, n ≤ 9900 → evidenceShare n = n / (100 + n) := by
    intro n hn
    have hn' : (n : ℚ) ≤ 9900 := by exact_mod_cast hn
    refine min_eq_left ?_
    rw [div_le_div_iff₀ (by positivity) (by norm_num)]
    linarith
  unfold PenaltyCovers
  rw [hconfidence, hnext, hshare _ hcap, hshare trust.evidenceCount (by omega)]
  push_cast
  have hn : (0 : ℚ) ≤ trust.evidenceCount := Nat.cast_nonneg _
  generalize (trust.evidenceCount : ℚ) = n at hn ⊢
  have hleft : trust.value * ((n + 1) / (100 + (n + 1)) - n / (100 + n)) =
      100 * trust.value / ((100 + (n + 1)) * (100 + n)) := by
    field_simp
    ring
  have hright : penalty severity * ((n + 1) / (100 + (n + 1))) =
      penalty severity * ((n + 1) * (n + 100)) / ((100 + (n + 1)) * (100 + n)) := by
    field_simp
    ring
  rw [hleft, hright, div_le_div_iff_of_pos_right (by positivity)]

theorem weighted_nonneg_run (initialValue : ℚ) (now : Int) (es : List (TrustOp × Int)) :
    0 ≤ (trustMachine.run (TrustScore.new initialValue now) es).weighted := by
  refine (trustMachine.run_invariant (fun _ _ => True) (fun trust => 0 ≤ trust.value ∧ 0 ≤ trust.weighted)
    ?_ (TrustScore.new initialValue now) es ⟨(TrustScore.clamp_mem _).1, ?_⟩
    (trustMachine.along_of_forall _ _ _ (fun _ _ _ => trivial))).2
  · rintro trust ⟨op, now⟩ ⟨hvalue, -⟩ -
    have hfactors : 0 ≤ (op.apply now trust).value ∧ 0 ≤ (op.apply now trust).confidence := by
      cases op with
      | feedback outcome =>
        cases outcome with
        | success => exact ⟨le_min (by linarith) zero_le_one, confidenceOf_nonneg _⟩
        | _ => exact ⟨le_max_right _ _, confidenceOf_nonneg _⟩
      | decay elapsed => exact ⟨le_max_right _ _, le_max_right _ _⟩
      | lockdown => exact ⟨(TrustScore.clamp_mem _).1, zero_le_one⟩
      | restore target => exact ⟨(TrustScore.clamp_mem _).1, by unfold TrustOp.apply TrustScore.restore; norm_num⟩
    exact ⟨hfactors.1, mul_nonneg hfactors.1 hfactors.2⟩
  · unfold TrustScore.weighted TrustScore.new clamp
    dsimp only
    by_cases h : 0 ≤ initialValue
    · exact mul_nonneg (le_max_left _ _) (le_min h (by norm_num))
    · -- a negative seed is a value of zero
      have hzero : max 0 (min initialValue 1) = 0 := max_eq_left ((min_le_left _ _).trans (by linarith))
      rw [hzero, zero_mul]

/-- **A violation earns nothing exactly when its penalty covers the confidence it brings**, on every record that a history
of operations reaches. -/
theorem earnsNothing_iff (initialValue : ℚ) (start : Int) (es : List (TrustOp × Int)) (outcome : ActionOutcome)
    (severity : ℚ) (hseverity : outcome.severity? = some severity) (now : Int) :
    EarnsNothing (trustMachine.run (TrustScore.new initialValue start) es)
        ((trustMachine.run (TrustScore.new initialValue start) es).onOutcome outcome now) ↔
      PenaltyCovers (trustMachine.run (TrustScore.new initialValue start) es) severity := by
  rw [TrustScore.onOutcome_of_severity hseverity,
    ← weighted_onPolicyViolation_le_iff (weighted_nonneg_run initialValue start es) severity now]
  exact ⟨EarnsNothing.weighted, earnsNothing_of_weighted⟩

/-- A restored record loses by a violation. -/
theorem earnsNothing_restored : EarnsNothing
    (trustMachine.run (TrustScore.new (1 / 2) 0) [(.restore .l4FullAutonomy, 1)])
    ((trustMachine.run (TrustScore.new (1 / 2) 0) [(.restore .l4FullAutonomy, 1)]).onOutcome (.policyViolation "rate") 2) :=
  (earnsNothing_iff _ _ _ _ (8 / 10) rfl _).2 (by decide +kernel)

/-- After one success a failure raises the effective trust. -/
theorem failure_earns_trust : ¬ EarnsNothing
    (trustMachine.run (TrustScore.new (1 / 2) 0) [(.feedback .success, 1)])
    ((trustMachine.run (TrustScore.new (1 / 2) 0) [(.feedback .success, 1)]).onOutcome (.failure "timeout") 2) := by
  intro h
  exact absurd h.weighted (by decide +kernel)

end Dynamic
end Rbac
end Kirino
