import Mathlib.Data.Nat.Notation
import Kirino.Lib.HashMap
import Kirino.Lib.Instants
import Kirino.Lib.Threads
import Kirino.Rbac.Audit.Sink
/-!
# Engine — audit rules and their evaluation (`rbac/audit.rs`)

An evaluation copies the rules and the times they were last triggered, reads the clock, goes through the rules, asking the
sink for the denials that a rule counts, and writes all the times back.  Each of these is a step, so that evaluations of
different events may overlap.  Instants are nanoseconds.
-/
namespace Kirino
namespace Rbac
namespace Audit

open Lib (HashMap Machine Pool PoolEvent maxDurationSecs nanosPerSec numSeconds)

inductive AuditSeverity where
  | info | warning | critical
deriving DecidableEq, Repr

inductive AuditAction where
  | alert (message : String) (severity : AuditSeverity)
  | notify (target : String) (message : String)
  | countermeasure (action : String) (params : List (String × String))
deriving DecidableEq, Repr

inductive LogicalOp where
  | all | any
deriving DecidableEq, Repr

inductive AuditCondition where
  | denied
  | highRisk (threshold : ℚ)
  | categorySensitive (minWeight : ℚ)
  | domainMismatch (minWeight : ℚ)
  | rapidDenials (windowSecs minCount : Nat)
  | trustBelow (threshold : ℚ)
  | composite (conditions : List AuditCondition) (operator : LogicalOp)

structure AuditRule where
  id : String
  name : String
  enabled : Bool
  condition : AuditCondition
  action : AuditAction
  cooldownSecs : Nat

structure AuditAlert where
  ruleId : String
  ruleName : String
  action : AuditAction
  triggeringEntry : AuditEntry
  createdAt : Int
deriving DecidableEq, Repr

/-- The entry has a verdict that passes the test. -/
def AuditEntry.verdictIs (entry : AuditEntry) (test : AuditVerdict → Bool) : Bool := entry.verdict.any test

mutual

def AuditCondition.evaluate (entry : AuditEntry) : AuditCondition → Bool
  | .denied => entry.isDenied
  | .highRisk threshold => entry.verdictIs (fun v => decide (threshold ≤ v.riskScore))
  | .categorySensitive minWeight => entry.verdictIs (fun v => decide (minWeight ≤ v.subScores.sensitivity))
  | .domainMismatch minWeight => entry.verdictIs (fun v => decide (minWeight ≤ v.subScores.domainMismatch))
  | .rapidDenials _ _ => false
  | .trustBelow threshold => entry.verdictIs (fun v => decide (1 - v.subScores.trustPenalty ≤ threshold))
  | .composite conditions .all => AuditCondition.evaluateAll entry conditions
  | .composite conditions .any => AuditCondition.evaluateAny entry conditions

def AuditCondition.evaluateAll (entry : AuditEntry) : List AuditCondition → Bool
  | [] => true
  | condition :: conditions => condition.evaluate entry && AuditCondition.evaluateAll entry conditions

def AuditCondition.evaluateAny (entry : AuditEntry) : List AuditCondition → Bool
  | [] => false
  | condition :: conditions => condition.evaluate entry || AuditCondition.evaluateAny entry conditions

end

/-! ## The clock -/

/-- The beginning of the window, none where `chrono` panics: at a duration too long, or before the earliest instant. -/
def windowStart (earliest now : Int) (windowSecs : Nat) : Option Int :=
  let secs := if windowSecs < 2 ^ 63 then windowSecs else 2 ^ 63 - 1
  let since := now - secs * nanosPerSec
  if maxDurationSecs < secs ∨ since < earliest then none else some since

/-! ## Evaluations -/

structure EngineState where
  rules : List AuditRule
  lastTriggered : HashMap String Int
  sink : Option InMemoryAuditSink
  now : Int

/-- The places of an evaluation, each with what it has read. -/
inductive EvaluateCall where
  | readRules (entry : AuditEntry)
  | readTriggered (entry : AuditEntry) (rules : List AuditRule)
  | readClock (entry : AuditEntry) (rules : List AuditRule) (snapshot : HashMap String Int)
  | countDenials (entry : AuditEntry) (now : Int) (windowSecs minCount : Nat) (rule : AuditRule) (rest : List AuditRule)
    (snapshot : HashMap String Int) (alerts : List AuditAlert)
  | writeBack (snapshot : HashMap String Int) (alerts : List AuditAlert)
  | returned

inductive EvaluateAnswer where
  | alerts (alerts : List AuditAlert)
  | panicked
deriving DecidableEq, Repr

/-- What happens beside the evaluations: time passes, and the logger appends to the sink. -/
inductive EngineOp where
  | elapse (nanos : Nat)
  | append (entry : AuditEntry)
  | addRule (rule : AuditRule)
  | removeRule (ruleId : String)

abbrev EnginePool := Pool EngineState EvaluateCall

abbrev EngineEvent := PoolEvent EvaluateCall Unit EngineOp

/-- The rule is not due: it was last triggered in the future, or less than its cooldown ago. -/
def AuditRule.coolingDown (rule : AuditRule) (snapshot : HashMap String Int) (now : Int) : Bool :=
  match snapshot.get? rule.id with
  | some last =>
    let elapsed := numSeconds (now - last)
    decide (elapsed < 0) || decide (elapsed.toNat < rule.cooldownSecs)
  | none => false

def AuditRule.alert (rule : AuditRule) (entry : AuditEntry) (now : Int) : AuditAlert :=
  ⟨rule.id, rule.name, rule.action, entry, now⟩

/-- The loop over the rules, up to the next that counts denials in the sink. -/
def scanRules (hasSink : Bool) (entry : AuditEntry) (now : Int) :
    List AuditRule → HashMap String Int → List AuditAlert → EvaluateCall
  | [], snapshot, alerts => .writeBack snapshot alerts
  | rule :: rest, snapshot, alerts =>
    if !rule.enabled || rule.coolingDown snapshot now then scanRules hasSink entry now rest snapshot alerts
    else
      match rule.condition with
      | .rapidDenials windowSecs minCount =>
        if hasSink then .countDenials entry now windowSecs minCount rule rest snapshot alerts
        else scanRules hasSink entry now rest snapshot alerts
      | condition =>
        if condition.evaluate entry then
          scanRules hasSink entry now rest (snapshot.insert rule.id now) (alerts ++ [rule.alert entry now])
        else scanRules hasSink entry now rest snapshot alerts

def denialsSince (entry : AuditEntry) (since : Int) : AuditFilter :=
  { AuditFilter.default with subjectId := some entry.subjectId, granted := some false, since := some since }

section Steps
variable (earliest : Int)

namespace EvaluateCall

/-- One step of an evaluation. -/
def next (w : EngineState) : EvaluateCall → EngineState × EvaluateCall × Option EvaluateAnswer
  | readRules entry => (w, .readTriggered entry w.rules, none)
  | readTriggered entry rules => (w, .readClock entry rules w.lastTriggered, none)
  | readClock entry rules snapshot => (w, scanRules w.sink.isSome entry w.now rules snapshot [], none)
  | countDenials entry now windowSecs minCount rule rest snapshot alerts =>
    match windowStart earliest now windowSecs with
    | none => (w, .returned, some .panicked)
    | some since =>
      if minCount ≤ (w.sink.map (fun sink => sink.count (denialsSince entry since))).getD 0 then
        (w, scanRules w.sink.isSome entry now rest (snapshot.insert rule.id now) (alerts ++ [rule.alert entry now]), none)
      else (w, scanRules w.sink.isSome entry now rest snapshot alerts, none)
  | writeBack snapshot alerts =>
    ({ w with lastTriggered := w.lastTriggered.insertAll snapshot }, .returned, some (.alerts alerts))
  | returned => (w, .returned, none)

end EvaluateCall

def EngineOp.perform (w : EngineState) : EngineOp → EngineState
  | elapse nanos => { w with now := w.now + nanos }
  | append entry => { w with sink := w.sink.map (fun sink => sink.append entry) }
  | addRule rule => { w with rules := w.rules ++ [rule] }
  | removeRule ruleId => { w with rules := w.rules.filter (fun rule => decide (rule.id ≠ ruleId)) }

def engineProgram : Lib.Program EngineState EvaluateCall Unit EngineOp (Option EvaluateAnswer) where
  next _ _ w call := call.next earliest w
  env op w := (op.perform w, none)
  idle := none

def engineMachine : Machine EnginePool EngineEvent (Option EvaluateAnswer) := (engineProgram earliest).machine

end Steps
end Audit
end Rbac
end Kirino
