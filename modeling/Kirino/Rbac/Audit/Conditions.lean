import Kirino.Rbac.Audit.Engine
/-!
# Conditions — what a tree of conditions means, and what the engine makes of it (`rbac/audit.rs`)

`AuditCondition.holds` is the compositional meaning of a tree: a windowed leaf is true where enough denials lie in its
window, wherever it stands.  The engine resolves a windowed leaf against the sink only where it is the whole condition
of a rule; `AuditCondition.evaluate`, which takes the trees, has no sink and takes the leaf for false.  Since a tree
only combines its leaves by `all` and `any`, the two differ exactly where the tree is made true by its windowed leaves
(`AuditCondition.madeTrueByHistory`).
-/
namespace Kirino
namespace Rbac
namespace Audit

open Lib (HashMap nanosPerSec)

section Meaning
variable (window : Nat → Nat → Bool) (entry : AuditEntry)

mutual

/-- **The meaning of a tree**, given what its windowed leaves mean. -/
def AuditCondition.holds : AuditCondition → Bool
  | .denied => entry.isDenied
  | .highRisk threshold => entry.verdictIs (fun v => decide (threshold ≤ v.riskScore))
  | .categorySensitive minWeight => entry.verdictIs (fun v => decide (minWeight ≤ v.subScores.sensitivity))
  | .domainMismatch minWeight => entry.verdictIs (fun v => decide (minWeight ≤ v.subScores.domainMismatch))
  | .rapidDenials windowSecs minCount => window windowSecs minCount
  | .trustBelow threshold => entry.verdictIs (fun v => decide (1 - v.subScores.trustPenalty ≤ threshold))
  | .composite conditions .all => AuditCondition.holdsAll conditions
  | .composite conditions .any => AuditCondition.holdsAny conditions

def AuditCondition.holdsAll : List AuditCondition → Bool
  | [] => true
  | condition :: conditions => condition.holds && AuditCondition.holdsAll conditions

def AuditCondition.holdsAny : List AuditCondition → Bool
  | [] => false
  | condition :: conditions => condition.holds || AuditCondition.holdsAny conditions

end

mutual

/-- The tree is true by its windowed leaves: it would be false without them. -/
def AuditCondition.madeTrueByHistory : AuditCondition → Bool
  | .rapidDenials windowSecs minCount => window windowSecs minCount
  | .composite conditions .all =>
    AuditCondition.eachTrue conditions && AuditCondition.someByHistory conditions
  | .composite conditions .any =>
    AuditCondition.someByHistory conditions && !AuditCondition.evaluateAny entry conditions
  | .denied => false
  | .highRisk _ => false
  | .categorySensitive _ => false
  | .domainMismatch _ => false
  | .trustBelow _ => false

/-- Each is true, by itself or by its windowed leaves. -/
def AuditCondition.eachTrue : List AuditCondition → Bool
  | [] => true
  | condition :: conditions =>
    (condition.evaluate entry || condition.madeTrueByHistory) && AuditCondition.eachTrue conditions

def AuditCondition.someByHistory : List AuditCondition → Bool
  | [] => false
  | condition :: conditions => condition.madeTrueByHistory || AuditCondition.someByHistory conditions

end

mutual

/-- **A tree holds when it evaluates to true or is made true by its windowed leaves, never both.** -/
theorem AuditCondition.holds_iff : ∀ condition : AuditCondition,
    (condition.holds window entry = true ↔
      condition.evaluate entry = true ∨ condition.madeTrueByHistory window entry = true) ∧
    (condition.evaluate entry = true → condition.madeTrueByHistory window entry = false)
  | .denied => by simp [holds, evaluate, madeTrueByHistory]
  | .highRisk _ => by simp [holds, evaluate, madeTrueByHistory]
  | .categorySensitive _ => by simp [holds, evaluate, madeTrueByHistory]
  | .domainMismatch _ => by simp [holds, evaluate, madeTrueByHistory]
  | .rapidDenials _ _ => by simp [holds, evaluate, madeTrueByHistory]
  | .trustBelow _ => by simp [holds, evaluate, madeTrueByHistory]
  | .composite conditions .all => by
    obtain ⟨hall, heval⟩ := AuditCondition.holdsAll_iff conditions
    simp only [holds, evaluate, madeTrueByHistory, Bool.and_eq_true, hall, heval]
    cases someByHistory window entry conditions <;> simp
  | .composite conditions .any => by
    simp only [holds, evaluate, madeTrueByHistory, Bool.and_eq_true, AuditCondition.holdsAny_iff conditions]
    cases evaluateAny entry conditions <;> simp

theorem AuditCondition.holdsAll_iff : ∀ conditions : List AuditCondition,
    (holdsAll window entry conditions = true ↔ eachTrue window entry conditions = true) ∧
    (evaluateAll entry conditions = true ↔
      eachTrue window entry conditions = true ∧ someByHistory window entry conditions = false)
  | [] => by simp [holdsAll, eachTrue, evaluateAll, someByHistory]
  | condition :: conditions => by
    obtain ⟨hholds, hnot⟩ := AuditCondition.holds_iff condition
    obtain ⟨hall, heval⟩ := AuditCondition.holdsAll_iff conditions
    simp only [holdsAll, eachTrue, evaluateAll, someByHistory, Bool.and_eq_true, Bool.or_eq_true, Bool.or_eq_false_iff,
      hholds, hall, heval, true_and]
    constructor
    · rintro ⟨hev, heach, hsome⟩
      exact ⟨⟨Or.inl hev, heach⟩, hnot hev, hsome⟩
    · rintro ⟨⟨hev | hmade, heach⟩, hfalse, hsome⟩
      · exact ⟨hev, heach, hsome⟩
      · exact absurd (hmade.symm.trans hfalse) (by decide)

theorem AuditCondition.holdsAny_iff : ∀ conditions : List AuditCondition,
    holdsAny window entry conditions = true ↔
      evaluateAny entry conditions = true ∨ someByHistory window entry conditions = true
  | [] => by simp [holdsAny, evaluateAny, someByHistory]
  | condition :: conditions => by
    simp only [holdsAny, evaluateAny, someByHistory, Bool.or_eq_true, (AuditCondition.holds_iff condition).1,
      AuditCondition.holdsAny_iff conditions]
    exact or_or_or_comm

end

end Meaning

/-! ## Turns -/

/-- The denials of the entry's subject that the sink holds within the window. -/
def denialsWithin (sink : InMemoryAuditSink) (entry : AuditEntry) (now : Int) (windowSecs : Nat) : Nat :=
  sink.entries.countP (fun denial => decide (denial.subjectId = entry.subjectId ∧ denial.granted = false ∧
    now - windowSecs * nanosPerSec ≤ denial.createdAt))

/-- What a windowed leaf means. -/
def windowMet (sink : InMemoryAuditSink) (entry : AuditEntry) (now : Int) (windowSecs minCount : Nat) : Bool :=
  decide (minCount ≤ denialsWithin sink entry now windowSecs)

inductive RuleTurn where
  | passedOver | fired | unfired | panicked
deriving DecidableEq, Repr

/-- What a rule does when its turn comes. -/
def ruleTurn (earliest : Int) (sink : Option InMemoryAuditSink) (entry : AuditEntry) (now : Int)
    (snapshot : HashMap String Int) (rule : AuditRule) : RuleTurn :=
  if !rule.enabled || rule.coolingDown snapshot now then .passedOver
  else
    match rule.condition with
    | .rapidDenials windowSecs minCount =>
      match sink with
      | none => .unfired
      | some sink =>
        match windowStart earliest now windowSecs with
        | none => .panicked
        | some since => if minCount ≤ sink.count (denialsSince entry since) then .fired else .unfired
    | condition => if condition.evaluate entry then .fired else .unfired

section Evaluation
variable (earliest : Int) (sink : Option InMemoryAuditSink) (entry : AuditEntry) (now : Int)

/-- The rules, turn by turn: the times and the alerts they leave, none after a panic. -/
def turns : List AuditRule → HashMap String Int → List AuditAlert → Option (HashMap String Int × List AuditAlert)
  | [], snapshot, alerts => some (snapshot, alerts)
  | rule :: rest, snapshot, alerts =>
    match ruleTurn earliest sink entry now snapshot rule with
    | .passedOver => turns rest snapshot alerts
    | .unfired => turns rest snapshot alerts
    | .fired => turns rest (snapshot.insert rule.id now) (alerts ++ [rule.alert entry now])
    | .panicked => none

def outcome : Option (HashMap String Int × List AuditAlert) → EvaluateAnswer
  | some (_, alerts) => .alerts alerts
  | none => .panicked

end Evaluation

theorem turns_append (earliest : Int) (sink : Option InMemoryAuditSink) (entry : AuditEntry) (now : Int)
    (rest : List AuditRule) : ∀ (rules : List AuditRule) (snapshot : HashMap String Int) (alerts : List AuditAlert),
      turns earliest sink entry now (rules ++ rest) snapshot alerts =
        (turns earliest sink entry now rules snapshot alerts).bind
          (fun left => turns earliest sink entry now rest left.1 left.2)
  | [], _, _ => rfl
  | rule :: rules, snapshot, alerts => by
    rw [List.cons_append, turns, turns]
    cases ruleTurn earliest sink entry now snapshot rule with
    | passedOver => exact turns_append earliest sink entry now rest rules snapshot alerts
    | unfired => exact turns_append earliest sink entry now rest rules snapshot alerts
    | fired => exact turns_append earliest sink entry now rest rules _ _
    | panicked => rfl

/-- A rule fires when its turn leaves its alert and the time. -/
theorem turns_singleton_eq_iff {earliest : Int} {sink : Option InMemoryAuditSink} {entry : AuditEntry} {now : Int}
    {rule : AuditRule} {snapshot : HashMap String Int} {alerts : List AuditAlert} :
    turns earliest sink entry now [rule] snapshot alerts =
        some (snapshot.insert rule.id now, alerts ++ [rule.alert entry now]) ↔
      ruleTurn earliest sink entry now snapshot rule = .fired := by
  rw [turns]
  cases ruleTurn earliest sink entry now snapshot rule <;> simp [turns]

/-- The evaluation, with nothing else going on in the state, returns the answer. -/
inductive Answers (earliest : Int) (w : EngineState) : EvaluateCall → EvaluateAnswer → Prop
  | here {call : EvaluateCall} {answer : EvaluateAnswer} (h : (call.next earliest w).2.2 = some answer) :
      Answers earliest w call answer
  | later {call : EvaluateCall} {answer : EvaluateAnswer} (hsame : (call.next earliest w).1 = w)
      (hgoes : (call.next earliest w).2.2 = none) (h : Answers earliest w (call.next earliest w).2.1 answer) :
      Answers earliest w call answer

variable {earliest : Int} {w : EngineState} {sink : InMemoryAuditSink} {entry : AuditEntry} {now : Int}

theorem Answers.unique {call : EvaluateCall} {answer answer' : EvaluateAnswer} (h : Answers earliest w call answer)
    (h' : Answers earliest w call answer') : answer = answer' := by
  induction h with
  | here hans =>
    cases h' with
    | here hans' => exact Option.some.inj (hans.symm.trans hans')
    | later _ hgoes _ => cases hans.symm.trans hgoes
  | later _ hgoes _ ih =>
    cases h' with
    | here hans' => cases hans'.symm.trans hgoes
    | later _ _ h' => exact ih h'

/-- **The loop goes turn by turn.** -/
theorem answers_scanRules (earliest : Int) (w : EngineState) (entry : AuditEntry) (now : Int) :
    ∀ (rules : List AuditRule) (snapshot : HashMap String Int) (alerts : List AuditAlert),
      Answers earliest w (scanRules w.sink.isSome entry now rules snapshot alerts)
        (outcome (turns earliest w.sink entry now rules snapshot alerts))
  | [], snapshot, alerts => Answers.here rfl
  | rule :: rest, snapshot, alerts => by
    rw [scanRules, turns, ruleTurn]
    by_cases hskip : (!rule.enabled || rule.coolingDown snapshot now) = true
    · rw [if_pos hskip, if_pos hskip]
      exact answers_scanRules earliest w entry now rest snapshot alerts
    · rw [if_neg hskip, if_neg hskip]
      have hpure : ∀ condition : AuditCondition,
          Answers earliest w
            (if condition.evaluate entry = true then
              scanRules w.sink.isSome entry now rest (snapshot.insert rule.id now) (alerts ++ [rule.alert entry now])
            else scanRules w.sink.isSome entry now rest snapshot alerts)
            (outcome (match (if condition.evaluate entry = true then RuleTurn.fired else RuleTurn.unfired) with
              | .passedOver => turns earliest w.sink entry now rest snapshot alerts
              | .unfired => turns earliest w.sink entry now rest snapshot alerts
              | .fired => turns earliest w.sink entry now rest (snapshot.insert rule.id now)
                  (alerts ++ [rule.alert entry now])
              | .panicked => none)) := by
        intro condition
        split_ifs
        · exact answers_scanRules earliest w entry now rest _ _
        · exact answers_scanRules earliest w entry now rest _ _
      cases rule.condition with
      | rapidDenials windowSecs minCount =>
        cases hsink : w.sink with
        | none =>
          have hrest := answers_scanRules earliest w entry now rest snapshot alerts
          rw [hsink] at hrest
          exact hrest
        | some sink =>
          simp only [Option.isSome_some, if_true]
          cases hwindow : windowStart earliest now windowSecs with
          | none =>
            apply Answers.here
            simp [EvaluateCall.next, hwindow, outcome]
          | some since =>
            have hrest := answers_scanRules earliest w entry now rest
            rw [hsink] at hrest
            by_cases hcount : minCount ≤ sink.count (denialsSince entry since)
            · apply Answers.later
              · simp [EvaluateCall.next, hwindow, hsink, hcount]
              · simp [EvaluateCall.next, hwindow, hsink, hcount]
              · simpa [EvaluateCall.next, hwindow, hsink, hcount] using
                  hrest (snapshot.insert rule.id now) (alerts ++ [rule.alert entry now])
            · apply Answers.later
              · simp [EvaluateCall.next, hwindow, hsink, hcount]
              · simp [EvaluateCall.next, hwindow, hsink, hcount]
              · simpa [EvaluateCall.next, hwindow, hsink, hcount] using hrest snapshot alerts
      | denied => exact hpure .denied
      | highRisk threshold => exact hpure (.highRisk threshold)
      | categorySensitive minWeight => exact hpure (.categorySensitive minWeight)
      | domainMismatch minWeight => exact hpure (.domainMismatch minWeight)
      | trustBelow threshold => exact hpure (.trustBelow threshold)
      | composite conditions operator => exact hpure (.composite conditions operator)

/-- **An evaluation is its turns**, over the rules and the times it finds. -/
theorem answers_readRules (earliest : Int) (w : EngineState) (entry : AuditEntry) :
    Answers earliest w (.readRules entry)
      (outcome (turns earliest w.sink entry w.now w.rules w.lastTriggered [])) := by
  apply Answers.later rfl rfl
  apply Answers.later rfl rfl
  apply Answers.later rfl rfl
  exact answers_scanRules earliest w entry w.now w.rules w.lastTriggered []

/-! ## A rule whose turn has come -/

theorem count_denialsSince (sink : InMemoryAuditSink) (entry : AuditEntry) (since : Int) :
    sink.count (denialsSince entry since) =
      sink.entries.countP (fun denial => decide (denial.subjectId = entry.subjectId ∧ denial.granted = false ∧
        since ≤ denial.createdAt)) := by
  apply List.countP_congr
  intro denial _
  simp [matchesFilter, denialsSince, AuditFilter.default, accepts, and_assoc]

/-- A window that `chrono` represents begins where it should. -/
theorem windowStart_eq_some {windowSecs : Nat} {since : Int} (h : windowStart earliest now windowSecs = some since) :
    since = now - windowSecs * nanosPerSec := by
  unfold windowStart at h
  dsimp only at h
  split_ifs at h with hlarge hbad
  · exact (Option.some.inj h).symm
  · exfalso
    rename_i hbad
    exact hbad (Or.inl (by decide))

/-- **The engine misjudges the condition**: a tree that only its windowed leaves make true, or a window that reaches back
further than an instant can and has its count. -/
def Misjudged (earliest : Int) (sink : InMemoryAuditSink) (entry : AuditEntry) (now : Int) : AuditCondition → Prop
  | .rapidDenials windowSecs minCount =>
    windowStart earliest now windowSecs = none ∧ windowMet sink entry now windowSecs minCount = true
  | condition => condition.madeTrueByHistory (windowMet sink entry now) entry = true

theorem fired_pure_iff {sink : InMemoryAuditSink} {entry : AuditEntry} {now : Int}
    (condition : AuditCondition) :
    ((if condition.evaluate entry then RuleTurn.fired else RuleTurn.unfired) = .fired ↔
      condition.holds (windowMet sink entry now) entry = true) ↔
    ¬ condition.madeTrueByHistory (windowMet sink entry now) entry = true := by
  obtain ⟨hholds, hnot⟩ := AuditCondition.holds_iff (windowMet sink entry now) entry condition
  rw [hholds]
  by_cases hev : condition.evaluate entry = true
  · simp [hev, hnot hev]
  · simp [hev]

theorem ruleTurn_fired_iff {snapshot : HashMap String Int} {rule : AuditRule} (henabled : rule.enabled = true)
    (hdue : rule.coolingDown snapshot now = false) :
    (ruleTurn earliest (some sink) entry now snapshot rule = .fired ↔
      rule.condition.holds (windowMet sink entry now) entry = true) ↔ ¬ Misjudged earliest sink entry now rule.condition := by
  rw [ruleTurn, if_neg (by simp [henabled, hdue])]
  cases rule.condition with
  | rapidDenials windowSecs minCount =>
    dsimp only [Misjudged, AuditCondition.holds]
    cases hwindow : windowStart earliest now windowSecs with
    | none => simp
    | some since =>
      dsimp only
      rw [count_denialsSince, windowStart_eq_some hwindow]
      simp [windowMet, denialsWithin]
  | denied => exact fired_pure_iff .denied
  | highRisk threshold => exact fired_pure_iff (.highRisk threshold)
  | categorySensitive minWeight => exact fired_pure_iff (.categorySensitive minWeight)
  | domainMismatch minWeight => exact fired_pure_iff (.domainMismatch minWeight)
  | trustBelow threshold => exact fired_pure_iff (.trustBelow threshold)
  | composite conditions operator => exact fired_pure_iff (.composite conditions operator)

/-- **A rule fires as its tree says, unless the engine misjudges the tree.**  The evaluation of the entry is the turns of
the rules it finds; at the turn of a rule that is enabled and not cooling down, the rule fires exactly when its tree
holds of the history in the sink, if and only if the condition is not one that the engine misjudges. -/
theorem evaluate_compositional_iff (earliest : Int) (w : EngineState) (sink : InMemoryAuditSink)
    (hsink : w.sink = some sink) (entry : AuditEntry) :
    Answers earliest w (.readRules entry)
        (outcome (turns earliest w.sink entry w.now w.rules w.lastTriggered [])) ∧
      ∀ (pre : List AuditRule) (rule : AuditRule) (post : List AuditRule) (snapshot : HashMap String Int)
        (alerts : List AuditAlert), w.rules = pre ++ rule :: post →
          turns earliest w.sink entry w.now pre w.lastTriggered [] = some (snapshot, alerts) →
          rule.enabled = true → rule.coolingDown snapshot w.now = false →
            ((turns earliest w.sink entry w.now (pre ++ [rule]) w.lastTriggered [] =
                some (snapshot.insert rule.id w.now, alerts ++ [rule.alert entry w.now]) ↔
              rule.condition.holds (windowMet sink entry w.now) entry = true) ↔
            ¬ Misjudged earliest sink entry w.now rule.condition) := by
  refine ⟨answers_readRules earliest w entry, ?_⟩
  intro pre rule post snapshot alerts _ hpre henabled hdue
  rw [turns_append, hpre, Option.bind_some, turns_singleton_eq_iff, hsink]
  exact ruleTurn_fired_iff henabled hdue

/-- Two denials within a minute, as a rule by itself and as the only part of a tree. -/
def burst : AuditCondition := .rapidDenials 60 2

def burstRule (condition : AuditCondition) : AuditRule :=
  ⟨"burst", "burst of denials", true, condition, .notify "ops" "burst", 0⟩

def twiceDenied : InMemoryAuditSink :=
  ((InMemoryAuditSink.withMaxEntries 10).append ⟨0, "bob", "user", "doc:write", "/docs", false, 0, none⟩).append
    ⟨0, "bob", "user", "doc:write", "/docs", false, 1, none⟩

def thirdDenial : AuditEntry := ⟨0, "bob", "user", "doc:write", "/docs", false, 2, none⟩

def burstEngine (condition : AuditCondition) : EngineState := ⟨[burstRule condition], HashMap.empty, some twiceDenied, 2⟩

/-- As a rule by itself the leaf is counted. -/
theorem evaluate_compositional_burst :
    turns (-10 ^ 18) (some twiceDenied) thirdDenial 2 [burstRule burst] HashMap.empty [] =
        some (HashMap.empty.insert "burst" 2, [(burstRule burst).alert thirdDenial 2]) ↔
      burst.holds (windowMet twiceDenied thirdDenial 2) thirdDenial = true := by
  refine ((evaluate_compositional_iff (-10 ^ 18) (burstEngine burst) twiceDenied rfl thirdDenial).2 [] (burstRule burst) []
    HashMap.empty [] rfl rfl rfl rfl).2 ?_
  rintro ⟨hwindow, -⟩
  revert hwindow
  decide +kernel

/-- Inside a tree the leaf is taken for false: no alert, though the tree holds. -/
theorem evaluate_not_compositional :
    ¬ ∀ (w : EngineState) (sink : InMemoryAuditSink) (entry : AuditEntry) (rule : AuditRule), w.sink = some sink →
      w.rules = [rule] → rule.enabled = true → rule.coolingDown w.lastTriggered w.now = false →
        (Answers (-10 ^ 18) w (.readRules entry) (.alerts [rule.alert entry w.now]) ↔
          rule.condition.holds (windowMet sink entry w.now) entry = true) := by
  intro h
  let condition : AuditCondition := .composite [burst] .all
  have hnone := answers_readRules (-10 ^ 18) (burstEngine condition) thirdDenial
  have hfires := (h (burstEngine condition) twiceDenied thirdDenial (burstRule condition) rfl rfl rfl rfl).2
    (by decide +kernel)
  have hsame := hfires.unique hnone
  revert hsame
  decide +kernel

end Audit
end Rbac
end Kirino
