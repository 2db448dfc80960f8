import Mathlib.Algebra.Order.Group.Unbundled.Abs
import Kirino.Lib.Fallible
import Kirino.Rbac.Dynamic.Verdict
/-!
# Policy — from risk to autonomy (`rbac/dynamic/policy.rs`)

The weights of the five dimensions, the risk bands of the levels and their strategies.  A map by level is a function on
the levels; it is read in their order.
-/
namespace Kirino
namespace Rbac
namespace Dynamic

structure DynamicPolicy where
  dimensionWeights : Vector ℚ 5
  autonomyThresholds : AutonomyLevel → Option (ℚ × ℚ)
  levelStrategies : AutonomyLevel → Option Strategy

/-- Why a policy is refused. -/
inductive PolicyError where
  | weightSum (sum : ℚ)
  | weight (weight : ℚ)
  | bandOrder (level : AutonomyLevel) (min max : ℚ)
  | bandRange (level : AutonomyLevel) (min max : ℚ)
  | noStrategy (level : AutonomyLevel)
deriving DecidableEq, Repr

namespace DynamicPolicy

/-- The bands, from the lowest level to the highest. -/
def bands (policy : DynamicPolicy) : List (AutonomyLevel × ℚ × ℚ) :=
  AutonomyLevel.ascending.filterMap (fun level => (policy.autonomyThresholds level).map (fun band => (level, band)))

def mapToLevel (policy : DynamicPolicy) (risk : ℚ) : AutonomyLevel :=
  match policy.bands.reverse.find? (fun band => decide (band.2.1 ≤ risk ∧ risk < band.2.2)) with
  | some band => band.1
  | none => .l0Frozen

def strategyFor (policy : DynamicPolicy) (level : AutonomyLevel) : Strategy :=
  (policy.levelStrategies level).getD (.block "no-strategy-defined")

def validateBand (policy : DynamicPolicy) (band : AutonomyLevel × ℚ × ℚ) : Except PolicyError Unit :=
  if band.2.2 ≤ band.2.1 then .error (.bandOrder band.1 band.2.1 band.2.2)
  else if band.2.1 < 0 ∨ 11 / 10 < band.2.2 then .error (.bandRange band.1 band.2.1 band.2.2)
  else if (policy.levelStrategies band.1).isNone then .error (.noStrategy band.1)
  else .ok ()

def validateWeight (weight : ℚ) : Except PolicyError Unit :=
  if 0 ≤ weight ∧ weight ≤ 1 then .ok () else .error (.weight weight)

def validate (policy : DynamicPolicy) : Except PolicyError Unit := do
  let sum := policy.dimensionWeights.toList.sum
  if 5 / 100 < |sum - 1| then .error (.weightSum sum)
  policy.dimensionWeights.toList.forM validateWeight
  policy.bands.forM policy.validateBand

end DynamicPolicy

def defaultDynamicPolicy : DynamicPolicy where
  dimensionWeights := #v[10 / 100, 30 / 100, 25 / 100, 25 / 100, 10 / 100]
  autonomyThresholds
    | .l4FullAutonomy => some (0, 15 / 100)
    | .l3Conditional => some (15 / 100, 35 / 100)
    | .l2SemiAutonomous => some (35 / 100, 60 / 100)
    | .l1Assisted => some (60 / 100, 80 / 100)
    | .l0Frozen => some (80 / 100, 101 / 100)
  levelStrategies
    | .l4FullAutonomy => some (.allow true)
    | .l3Conditional => some (.throttle 30)
    | .l2SemiAutonomous => some .requireConfirmation
    | .l1Assisted => some .requireConfirmation
    | .l0Frozen => some (.block "")

namespace DynamicPolicy

theorem validateWeight_eq_ok {weight : ℚ} (h : validateWeight weight = .ok ()) : 0 ≤ weight ∧ weight ≤ 1 := by
  unfold validateWeight at h
  split at h
  · assumption
  · cases h

/-- An accepted policy has passed both loops. -/
theorem loops_of_validate {policy : DynamicPolicy} (h : policy.validate = .ok ()) :
    policy.dimensionWeights.toList.forM validateWeight = .ok () ∧ policy.bands.forM policy.validateBand = .ok () := by
  unfold validate at h
  by_cases hsum : 5 / 100 < |policy.dimensionWeights.toList.sum - 1|
  · rw [if_pos hsum] at h
    cases h
  · rw [if_neg hsum] at h
    cases hweights : policy.dimensionWeights.toList.forM validateWeight with
    | error e =>
      simp only [hweights] at h
      cases h
    | ok u =>
      simp only [hweights] at h
      exact ⟨rfl, h⟩

/-- **An accepted policy has its weights in range.** -/
theorem weights_of_validate {policy : DynamicPolicy} (h : policy.validate = .ok ()) :
    ∀ weight ∈ policy.dimensionWeights.toList, 0 ≤ weight ∧ weight ≤ 1 := by
  intro weight hweight
  exact validateWeight_eq_ok ((Lib.forM_eq_ok_iff _).1 (loops_of_validate h).1 weight hweight)

example : defaultDynamicPolicy.validate = .ok () := by decide +kernel

end DynamicPolicy
end Dynamic
end Rbac
end Kirino
