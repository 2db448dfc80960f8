import Mathlib.Algebra.Order.Ring.Rat
/-!
# Verdict — requests, autonomy levels and verdicts (`rbac/dynamic/verdict.rs`, `delegator.rs`, `metrics.rs`)

Scores are exact rationals, instants are integers.  The evidence of a verdict is kept as the values that its texts print.
-/
namespace Kirino
namespace Rbac
namespace Dynamic

inductive DelegatorType where
  | human | agent | subAgent | externalSystem | scheduler
deriving DecidableEq, Repr

structure Delegator where
  id : String
  delegatorType : DelegatorType
deriving DecidableEq, Repr

inductive ActionCategory where
  | readOnly | stateWrite | fileWrite | networkEgress | processExec | containerLifecycle | privilegedOp
deriving DecidableEq, Repr

def ActionCategory.baseWeight : ActionCategory → ℚ
  | .readOnly => 1 / 10
  | .stateWrite => 3 / 10
  | .fileWrite => 5 / 10
  | .networkEgress => 7 / 10
  | .processExec => 8 / 10
  | .containerLifecycle => 9 / 10
  | .privilegedOp => 1

structure ActionRequest where
  delegator : Delegator
  action : String
  category : ActionCategory
  resourcePath : Option String
  timestamp : Int
deriving DecidableEq, Repr

/-- The levels, from the lowest autonomy to the highest. -/
inductive AutonomyLevel where
  | l0Frozen | l1Assisted | l2SemiAutonomous | l3Conditional | l4FullAutonomy
deriving DecidableEq, Repr

/-- The order of the keys of a map by level. -/
def AutonomyLevel.ascending : List AutonomyLevel :=
  [.l0Frozen, .l1Assisted, .l2SemiAutonomous, .l3Conditional, .l4FullAutonomy]

inductive Strategy where
  | allow (autoApprove : Bool)
  | throttle (maxRatePerMin : Nat)
  | requireConfirmation
  | block (reason : String)
deriving DecidableEq, Repr

structure SubScores where
  delegatorWeight : ℚ
  trustPenalty : ℚ
  sensitivity : ℚ
  domainMismatch : ℚ
  anomaly : ℚ
deriving DecidableEq, Repr

structure RiskScore where
  value : ℚ
  subScores : SubScores
deriving DecidableEq, Repr

inductive ActionOutcome where
  | success
  | failure (error : String)
  | policyViolation (rule : String)
  | anomalous (deviation : ℚ)
deriving DecidableEq, Repr

/-- What an evidence line reports. -/
inductive Evidence where
  | frozen (id : String)
  | risk (value : ℚ) (level : AutonomyLevel) (delegatorType : DelegatorType)
  | sub (scores : SubScores)
deriving DecidableEq, Repr

structure AuthorizationVerdict where
  allowed : Bool
  autonomyLevel : AutonomyLevel
  riskScore : ℚ
  subScores : SubScores
  evidence : List Evidence
  mitigation : Option Strategy
  timestamp : Int
deriving DecidableEq, Repr

/-- `f64::clamp`. -/
def clamp (x lo hi : ℚ) : ℚ := max lo (min x hi)

end Dynamic
end Rbac
end Kirino
