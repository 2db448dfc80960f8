import Mathlib.Algebra.Order.Field.Basic
import Mathlib.Algebra.Order.Group.Unbundled.Abs
import Kirino.Lib.HashMap
import Kirino.Rbac.Dynamic.Verdict
/-!
# Anomaly — the deviation of a delegator's actions from its baseline (`rbac/dynamic/anomaly.rs`)

A sliding window of actions is scored against the frequencies of the first hundred.  The square root of a standard
deviation is a parameter, since scores are rational.
-/
namespace Kirino
namespace Rbac
namespace Dynamic

open Lib (HashMap)

def defaultWindowSize : Nat := 20

def baselineMinSamples : Nat := 100

structure AnomalyScore where
  value : ℚ
  reason : String
deriving DecidableEq, Repr

structure ActionRecord where
  action : String
  category : ActionCategory
  timestamp : Int
deriving DecidableEq, Repr

structure BehaviorBaseline where
  categoryMeans : HashMap ActionCategory ℚ
  categoryStdevs : HashMap ActionCategory ℚ

structure AnomalyDetector where
  recentActions : List ActionRecord
  windowSize : Nat
  categoryProfile : HashMap ActionCategory ℚ
  baseline : Option BehaviorBaseline
  totalObserved : Nat
  history : List ActionRecord

/-- How often each category occurs. -/
def countCategories (records : List ActionRecord) : HashMap ActionCategory ℚ :=
  records.foldl (fun counts record => counts.insert record.category ((counts.get? record.category).getD 0 + 1))
    HashMap.empty

namespace AnomalyDetector

def new (windowSize : Nat) : AnomalyDetector := ⟨[], windowSize, HashMap.empty, none, 0, []⟩

def default : AnomalyDetector := new defaultWindowSize

def isBaselineReady (detector : AnomalyDetector) : Bool := decide (baselineMinSamples ≤ detector.totalObserved)

def recomputeProfile (detector : AnomalyDetector) : AnomalyDetector :=
  { detector with
    categoryProfile :=
      if detector.recentActions.isEmpty then HashMap.empty
      else (countCategories detector.recentActions).mapValues (fun count => count / detector.recentActions.length) }

/-- How far a frequency is from its mean, in standard deviations. -/
def zScore (frequency mean stdev : ℚ) : ℚ :=
  if 0 < stdev then (frequency - mean) / stdev
  else if |frequency - mean| < 1 / 10 ^ 12 then 0
  else 2

def patternDeviation (detector : AnomalyDetector) : ℚ :=
  match detector.baseline with
  | none => 0
  | some baseline =>
    let present := detector.categoryProfile.entries.map (fun e =>
      |zScore e.2 ((baseline.categoryMeans.get? e.1).getD 0) ((baseline.categoryStdevs.get? e.1).getD (1 / 10))|)
    let missing := baseline.categoryMeans.entries.filter (fun e =>
      (detector.categoryProfile.get? e.1).isNone && decide (1 / 100 < e.2))
    let count := present.length + missing.length
    if count = 0 then 0 else min ((present.sum + 2 * missing.length) / count / 3) 1

section SquareRoot
variable (sqrt : ℚ → ℚ)

def buildBaselineFromHistory (detector : AnomalyDetector) : AnomalyDetector :=
  let n : ℚ := detector.history.length
  if detector.totalObserved < baselineMinSamples ∨ n = 0 then detector
  else
    let means := (countCategories detector.history).mapValues (fun count => count / n)
    let sampleVar (p : ℚ) : ℚ := if 1 < n then p * (1 - p) * n / (n - 1) else p * (1 - p)
    { detector with baseline := some ⟨means, means.mapValues (fun p => max (sqrt (sampleVar p)) (1 / 100))⟩ }

/-- The action enters the window, and the history until there is a baseline. -/
def push (detector : AnomalyDetector) (record : ActionRecord) : AnomalyDetector :=
  { detector with
    totalObserved := (detector.totalObserved + 1) % 2 ^ 64
    recentActions :=
      (if detector.windowSize ≤ detector.recentActions.length then detector.recentActions.tail
       else detector.recentActions) ++ [record]
    history :=
      if detector.baseline.isNone && decide (detector.history.length < baselineMinSamples) then detector.history ++ [record]
      else detector.history }

/-- The baseline is built from the history as soon as it is due. -/
def buildWhenReady (detector : AnomalyDetector) : AnomalyDetector :=
  if detector.isBaselineReady && detector.baseline.isNone then { detector.buildBaselineFromHistory sqrt with history := [] }
  else detector

def score (detector : AnomalyDetector) : AnomalyScore :=
  if !detector.isBaselineReady then ⟨1 / 10, "insufficient-samples"⟩
  else
    let deviation := detector.patternDeviation
    if 7 / 10 < deviation then ⟨deviation, "high-pattern-deviation"⟩
    else if 4 / 10 < deviation then ⟨deviation, "moderate-pattern-deviation"⟩
    else ⟨deviation, "normal"⟩

def observe (detector : AnomalyDetector) (request : ActionRequest) : AnomalyScore × AnomalyDetector :=
  let detector := detector.push ⟨request.action, request.category, request.timestamp⟩
  let detector := detector.recomputeProfile.buildWhenReady sqrt
  (detector.score, detector)

end SquareRoot
end AnomalyDetector
end Dynamic
end Rbac
end Kirino
