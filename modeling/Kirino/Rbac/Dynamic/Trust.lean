import Mathlib.Algebra.Order.Field.Basic
import Mathlib.Tactic.Linarith
import Mathlib.Tactic.Positivity
import Kirino.Lib.Machine
import Kirino.Rbac.Dynamic.Verdict
/-!
# Trust — the trust record and what changes it (`rbac/dynamic/trust.rs`, `rbac/dynamic/arbiter.rs`)

The record of one delegator, over exact rationals, with the update that each operation of the arbiter and of the decay
worker makes of it.  The value, the confidence and their product stay in `[0, 1]` in every run from a record whose seed is
not negative (`inRange_run_iff`); a negative seed is clamped in the value and not in the confidence.
-/
namespace Kirino
namespace Rbac
namespace Dynamic

open Lib (Machine)

/-- `std::time::Duration`. -/
structure Duration where
  nanos : Nat
deriving DecidableEq, Repr

def Duration.hours (elapsed : Duration) : ℚ := elapsed.nanos / (3600 * 10 ^ 9)

theorem Duration.hours_nonneg (elapsed : Duration) : 0 ≤ elapsed.hours := by
  unfold Duration.hours
  positivity

structure TrustScore where
  value : ℚ
  confidence : ℚ
  evidenceCount : Nat
  lastUpdated : Int
  degradationRate : ℚ
deriving DecidableEq, Repr

namespace TrustScore

def default (now : Int) : TrustScore := ⟨0, 0, 0, now, 1 / 100⟩

def new (initialValue : ℚ) (now : Int) : TrustScore := ⟨clamp initialValue 0 1, min initialValue (1 / 2), 0, now, 1 / 100⟩

def weighted (trust : TrustScore) : ℚ := trust.value * trust.confidence

/-- The confidence that so many pieces of evidence give. -/
def confidenceOf (evidenceCount : Nat) : ℚ := min (1 - 1 / (1 + evidenceCount / 100)) (99 / 100)

/-- The next count of a `u64`. -/
def nextCount (evidenceCount : Nat) : Nat := (evidenceCount + 1) % 2 ^ 64

def onCompliantBehavior (trust : TrustScore) (severity : ℚ) (now : Int) : TrustScore :=
  { trust with
    value := min (trust.value + 1 / 100 * severity) 1
    evidenceCount := nextCount trust.evidenceCount
    confidence := confidenceOf (nextCount trust.evidenceCount)
    lastUpdated := now }

/-- What a violation takes off the value. -/
def penalty (severity : ℚ) : ℚ := 1 / 10 * severity + 2 / 10 * max (severity - 8 / 10) 0

def onPolicyViolation (trust : TrustScore) (severity : ℚ) (now : Int) : TrustScore :=
  { trust with
    value := max (trust.value - penalty severity) 0
    evidenceCount := nextCount trust.evidenceCount
    confidence := confidenceOf (nextCount trust.evidenceCount)
    lastUpdated := now }

def degrade (trust : TrustScore) (elapsed : Duration) (now : Int) : TrustScore :=
  let decay := trust.degradationRate * elapsed.hours
  { trust with
    value := max (trust.value - decay) 0
    confidence := max (trust.confidence - decay * (1 / 2)) 0
    lastUpdated := now }

/-- The update that `feedback` makes. -/
def onOutcome (trust : TrustScore) (outcome : ActionOutcome) (now : Int) : TrustScore :=
  match outcome with
  | .success => trust.onCompliantBehavior (5 / 10) now
  | .failure _ => trust.onPolicyViolation (2 / 10) now
  | .policyViolation _ => trust.onPolicyViolation (8 / 10) now
  | .anomalous deviation => trust.onPolicyViolation deviation now

def lockdownEvidenceCount : Nat := 999

/-- The record that `lockdown` writes. -/
def lockdown (now : Int) : TrustScore :=
  { new 0 now with confidence := 1, evidenceCount := lockdownEvidenceCount }

def targetTrust : AutonomyLevel → ℚ
  | .l4FullAutonomy => 95 / 100
  | .l3Conditional => 8 / 10
  | .l2SemiAutonomous => 6 / 10
  | .l1Assisted => 4 / 10
  | .l0Frozen => 1 / 10

/-- The record that `restore` writes. -/
def restore (target : AutonomyLevel) (now : Int) : TrustScore :=
  { new (targetTrust target) now with confidence := 8 / 10, evidenceCount := 10 }

end TrustScore

/-! ## The operations on one record -/

/-- An operation that changes the record. -/
inductive TrustOp where
  | feedback (outcome : ActionOutcome)
  | decay (elapsed : Duration)
  | lockdown
  | restore (target : AutonomyLevel)
deriving DecidableEq, Repr

def TrustOp.apply (now : Int) (trust : TrustScore) : TrustOp → TrustScore
  | .feedback outcome => trust.onOutcome outcome now
  | .decay elapsed => trust.degrade elapsed now
  | .lockdown => TrustScore.lockdown now
  | .restore target => TrustScore.restore target now

/-- The severity that an outcome is a violation of. -/
def ActionOutcome.severity? : ActionOutcome → Option ℚ
  | .success => none
  | .failure _ => some (2 / 10)
  | .policyViolation _ => some (8 / 10)
  | .anomalous deviation => some deviation

/-- The deviation that a feedback reports lies in `[0, 1]`, as documented. -/
def TrustOp.Documented : TrustOp → Prop
  | .feedback (.anomalous deviation) => 0 ≤ deviation ∧ deviation ≤ 1
  | _ => True

/-- One record under its operations, each at an instant. -/
def trustMachine : Machine TrustScore (TrustOp × Int) Unit where
  step trust e := e.1.apply e.2 trust
  out _ _ := ()

theorem TrustScore.onOutcome_of_severity {outcome : ActionOutcome} {severity : ℚ}
    (h : outcome.severity? = some severity) (trust : TrustScore) (now : Int) :
    trust.onOutcome outcome now = trust.onPolicyViolation severity now := by
  cases outcome <;> cases h <;> rfl

/-! ## Range -/

namespace TrustScore

/-- The value, the confidence and the effective trust lie in `[0, 1]`. -/
structure InRange (trust : TrustScore) : Prop where
  value : 0 ≤ trust.value ∧ trust.value ≤ 1
  confidence : 0 ≤ trust.confidence ∧ trust.confidence ≤ 1
  weighted : 0 ≤ trust.weighted ∧ trust.weighted ≤ 1

/-- What every update keeps: two factors in range, and a decay that takes trust away. -/
structure Sound (trust : TrustScore) : Prop where
  value : 0 ≤ trust.value ∧ trust.value ≤ 1
  confidence : 0 ≤ trust.confidence ∧ trust.confidence ≤ 1
  rate : 0 ≤ trust.degradationRate

theorem Sound.inRange {trust : TrustScore} (h : trust.Sound) : trust.InRange where
  value := h.value
  confidence := h.confidence
  weighted := ⟨mul_nonneg h.value.1 h.confidence.1, mul_le_one₀ h.value.2 h.confidence.1 h.confidence.2⟩

theorem clamp_mem (x : ℚ) : 0 ≤ clamp x 0 1 ∧ clamp x 0 1 ≤ 1 :=
  ⟨le_max_left _ _, max_le zero_le_one (min_le_right _ _)⟩

theorem confidenceOf_nonneg (evidenceCount : Nat) : 0 ≤ confidenceOf evidenceCount := by
  have hone : (1 : ℚ) ≤ 1 + evidenceCount / 100 := le_add_of_nonneg_right (by positivity)
  have hdiv : 1 / (1 + (evidenceCount : ℚ) / 100) ≤ 1 := by
    rw [div_le_one (by linarith)]
    exact hone
  exact le_min (by linarith) (by norm_num)

theorem confidenceOf_mem (evidenceCount : Nat) : 0 ≤ confidenceOf evidenceCount ∧ confidenceOf evidenceCount ≤ 1 :=
  ⟨confidenceOf_nonneg evidenceCount, (min_le_right _ _).trans (by norm_num)⟩

theorem penalty_nonneg {severity : ℚ} (h : 0 ≤ severity) : 0 ≤ penalty severity := by
  unfold penalty
  have := le_max_right (severity - 8 / 10) 0
  linarith

theorem sound_new {initialValue : ℚ} (h : 0 ≤ initialValue) (now : Int) : (new initialValue now).Sound where
  value := clamp_mem initialValue
  confidence := ⟨le_min h (by norm_num), (min_le_right _ _).trans (by norm_num)⟩
  rate := by unfold new; norm_num

theorem sound_default (now : Int) : (default now).Sound := by
  constructor <;> unfold default <;> norm_num

theorem sound_onCompliantBehavior {trust : TrustScore} (h : trust.Sound) {severity : ℚ} (hs : 0 ≤ severity) (now : Int) :
    (trust.onCompliantBehavior severity now).Sound where
  value := ⟨le_min (by have := h.value.1; linarith) zero_le_one, min_le_right _ _⟩
  confidence := confidenceOf_mem _
  rate := h.rate

theorem sound_onPolicyViolation {trust : TrustScore} (h : trust.Sound) {severity : ℚ} (hs : 0 ≤ severity) (now : Int) :
    (trust.onPolicyViolation severity now).Sound where
  value := ⟨le_max_right _ _, max_le (by have := h.value.2; have := penalty_nonneg hs; linarith) zero_le_one⟩
  confidence := confidenceOf_mem _
  rate := h.rate

theorem sound_degrade {trust : TrustScore} (h : trust.Sound) (elapsed : Duration) (now : Int) :
    (trust.degrade elapsed now).Sound := by
  have hdecay : 0 ≤ trust.degradationRate * elapsed.hours := mul_nonneg h.rate elapsed.hours_nonneg
  constructor
  · exact ⟨le_max_right _ _, max_le (by have := h.value.2; linarith) zero_le_one⟩
  · exact ⟨le_max_right _ _, max_le (by have := h.confidence.2; linarith) zero_le_one⟩
  · exact h.rate

theorem targetTrust_nonneg (target : AutonomyLevel) : 0 ≤ targetTrust target := by
  cases target <;> unfold targetTrust <;> norm_num

end TrustScore

/-- **Every documented operation keeps a record sound.** -/
theorem TrustOp.sound_apply {trust : TrustScore} (h : trust.Sound) {op : TrustOp} (hop : op.Documented) (now : Int) :
    (op.apply now trust).Sound := by
  cases op with
  | feedback outcome =>
    cases outcome with
    | success => exact TrustScore.sound_onCompliantBehavior h (by norm_num) now
    | failure error => exact TrustScore.sound_onPolicyViolation h (by norm_num) now
    | policyViolation rule => exact TrustScore.sound_onPolicyViolation h (by norm_num) now
    | anomalous deviation => exact TrustScore.sound_onPolicyViolation h hop.1 now
  | decay elapsed => exact TrustScore.sound_degrade h elapsed now
  | lockdown =>
    have hnew := TrustScore.sound_new le_rfl now
    exact ⟨hnew.value, ⟨zero_le_one, le_rfl⟩, hnew.rate⟩
  | restore target =>
    have hnew := TrustScore.sound_new (TrustScore.targetTrust_nonneg target) now
    exact ⟨hnew.value, by unfold TrustOp.apply TrustScore.restore; norm_num, hnew.rate⟩

theorem sound_run {trust : TrustScore} (h : trust.Sound) {es : List (TrustOp × Int)}
    (hes : ∀ e ∈ es, e.1.Documented) : (trustMachine.run trust es).Sound :=
  trustMachine.run_invariant (fun _ e => e.1.Documented) TrustScore.Sound
    (fun _ e hsound hdoc => TrustOp.sound_apply hsound hdoc e.2) trust es h
    (trustMachine.along_of_forall _ _ _ (fun _ => hes))

/-- How a record is built. -/
inductive TrustSeed where
  | new (initialValue : ℚ)
  | default
deriving DecidableEq, Repr

def TrustSeed.record (now : Int) : TrustSeed → TrustScore
  | .new initialValue => TrustScore.new initialValue now
  | .default => TrustScore.default now

def TrustSeed.NotNegative : TrustSeed → Prop
  | .new initialValue => 0 ≤ initialValue
  | .default => True

/-- Every record of the run is in range. -/
def StaysInRange (trust : TrustScore) (es : List (TrustOp × Int)) : Prop :=
  ∀ n, n ≤ es.length → (trustMachine.run trust (es.take n)).InRange

/-- **A record stays in range exactly when its seed is not negative.** -/
theorem inRange_run_iff (seed : TrustSeed) (now : Int) (es : List (TrustOp × Int)) (hes : ∀ e ∈ es, e.1.Documented) :
    StaysInRange (seed.record now) es ↔ seed.NotNegative := by
  constructor
  · intro h
    have hstart : (seed.record now).InRange := h 0 (Nat.zero_le _)
    cases seed with
    | default => trivial
    | new initialValue =>
      -- the confidence is a minimum with the seed itself
      exact hstart.confidence.1.trans (min_le_left _ _)
  · intro hseed n _
    have hsound : (seed.record now).Sound := by
      cases seed with
      | default => exact TrustScore.sound_default now
      | new initialValue => exact TrustScore.sound_new hseed now
    exact (sound_run hsound (fun e he => hes e (List.mem_of_mem_take he))).inRange

theorem inRange_run_half : StaysInRange (TrustSeed.record 0 (.new (1 / 2)))
    [(.feedback (.anomalous 1), 1), (.decay ⟨3600 * 10 ^ 9⟩, 2), (.restore .l4FullAutonomy, 3)] := by
  refine (inRange_run_iff (.new (1 / 2)) 0 _ ?_).2 (by unfold TrustSeed.NotNegative; norm_num)
  intro e he
  simp only [List.mem_cons, List.not_mem_nil, or_false] at he
  rcases he with rfl | rfl | rfl
  · exact ⟨zero_le_one, le_rfl⟩
  · trivial
  · trivial

/-- A seed of `-1` gives a confidence of `-1`. -/
theorem not_inRange_negative : ¬ StaysInRange (TrustSeed.record 0 (.new (-1))) [] := by
  intro h
  exact absurd (h 0 le_rfl).confidence.1 (by decide +kernel)

end Dynamic
end Rbac
end Kirino
