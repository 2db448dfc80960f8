import Kirino.Rbac.Audit.Conditions
import Kirino.Rbac.Audit.Cooldown
/-!
# Totality — when an evaluation completes (`rbac/audit.rs`)

A window is any number of seconds, and the evaluation takes it from the clock when the turn of its rule comes: it panics
where no instant is so far back.  Whether that turn comes is read off the state: the rule is enabled and due by the stored
times, and it has no cooldown or no rule of its id fires before it (`turns_eq_none_iff`).  Where no rule has such a window,
no evaluation panics in any run, however the evaluations overlap (`unpanicked_run`).
-/
namespace Kirino
namespace Rbac
namespace Audit

open Lib (HashMap Machine PoolInv earliestInstant latestInstant maxDurationSecs nanosPerSec numSeconds)

theorem windowStart_eq_none_iff {now : Int} (hclock : now ≤ latestInstant) (windowSecs : Nat) :
    windowStart earliestInstant now windowSecs = none ↔ now - windowSecs * nanosPerSec < earliestInstant := by
  have hlong : maxDurationSecs < windowSecs → now - windowSecs * nanosPerSec < earliestInstant := by
    intro h
    have hnanos : Lib.maxDuration < windowSecs * nanosPerSec := by
      unfold maxDurationSecs at h
      unfold Lib.maxDuration nanosPerSec
      omega
    simpa using Lib.lt_earliestInstant_of_long hclock hnanos
  unfold windowStart
  dsimp only
  by_cases hsmall : windowSecs < 2 ^ 63
  · rw [if_pos hsmall]
    by_cases hbad : maxDurationSecs < windowSecs ∨ now - windowSecs * nanosPerSec < earliestInstant
    · rw [if_pos hbad]
      exact iff_of_true rfl (hbad.elim hlong id)
    · rw [if_neg hbad]
      exact iff_of_false (by simp) (fun hearly => hbad (Or.inr hearly))
  · have hmax : maxDurationSecs < 2 ^ 63 - 1 := by decide
    rw [if_neg hsmall, if_pos (Or.inl hmax)]
    refine iff_of_true rfl (hlong ?_)
    omega

/-- No instant is as far back as the window of the rule. -/
def AuditRule.Overreaches (rule : AuditRule) (now : Int) : Prop :=
  match rule.condition with
  | .rapidDenials windowSecs _ => now - windowSecs * nanosPerSec < earliestInstant
  | _ => False

/-! ## One turn -/

section Turns
variable {sink : Option InMemoryAuditSink} {entry : AuditEntry} {now : Int} {snapshot stored : HashMap String Int}
variable {rule : AuditRule}

theorem ruleTurn_eq_panicked_iff (hclock : now ≤ latestInstant) :
    ruleTurn earliestInstant sink entry now snapshot rule = .panicked ↔
      (rule.enabled = true ∧ rule.coolingDown snapshot now = false) ∧ sink.isSome = true ∧ rule.Overreaches now := by
  have hpure : ∀ condition : AuditCondition,
      (if condition.evaluate entry = true then RuleTurn.fired else RuleTurn.unfired) ≠ .panicked := by
    intro condition
    split
    · exact RuleTurn.noConfusion
    · exact RuleTurn.noConfusion
  unfold ruleTurn AuditRule.Overreaches
  by_cases hskip : (!rule.enabled || rule.coolingDown snapshot now) = true
  · rw [if_pos hskip]
    refine iff_of_false (by simp) ?_
    rintro ⟨⟨henabled, hdue⟩, -⟩
    rw [henabled, hdue] at hskip
    cases hskip
  · rw [if_neg hskip]
    have hturn : rule.enabled = true ∧ rule.coolingDown snapshot now = false := by simpa using hskip
    cases rule.condition with
    | rapidDenials windowSecs minCount =>
      cases sink with
      | none => simp
      | some sink =>
        dsimp only
        rw [← windowStart_eq_none_iff hclock windowSecs]
        cases windowStart earliestInstant now windowSecs with
        | none => simp [hturn]
        | some since =>
          dsimp only
          split
          · simp
          · simp
    | denied => simpa using hpure .denied
    | highRisk threshold => simpa using hpure (.highRisk threshold)
    | categorySensitive minWeight => simpa using hpure (.categorySensitive minWeight)
    | domainMismatch minWeight => simpa using hpure (.domainMismatch minWeight)
    | trustBelow threshold => simpa using hpure (.trustBelow threshold)
    | composite conditions operator => simpa using hpure (.composite conditions operator)

theorem coolingDown_congr (h : snapshot.get? rule.id = stored.get? rule.id) :
    rule.coolingDown snapshot now = rule.coolingDown stored now := by
  unfold AuditRule.coolingDown
  rw [h]

/-- A rule that has just fired is due again when it has no cooldown. -/
theorem coolingDown_of_now (h : snapshot.get? rule.id = some now) :
    rule.coolingDown snapshot now = false ↔ rule.cooldownSecs = 0 := by
  have hzero : numSeconds (now - now) = 0 := by
    rw [Int.sub_self]
    rfl
  unfold AuditRule.coolingDown
  rw [h]
  dsimp only
  rw [hzero]
  simp

/-- A rule that is due by a time is due by it without a cooldown. -/
theorem coolingDown_of_cooldown_zero {earlier : AuditRule} (hid : earlier.id = rule.id)
    (hdue : earlier.coolingDown stored now = false) (hzero : rule.cooldownSecs = 0) :
    rule.coolingDown stored now = false := by
  unfold AuditRule.coolingDown at hdue ⊢
  rw [hid] at hdue
  cases hstored : stored.get? rule.id with
  | none => rfl
  | some last =>
    rw [hstored] at hdue
    dsimp only at hdue ⊢
    rw [Bool.or_eq_false_iff] at hdue ⊢
    refine ⟨hdue.1, ?_⟩
    rw [hzero]
    simp

theorem ruleTurn_congr (h : snapshot.get? rule.id = stored.get? rule.id) :
    ruleTurn earliestInstant sink entry now snapshot rule = ruleTurn earliestInstant sink entry now stored rule := by
  unfold ruleTurn
  rw [coolingDown_congr h]

theorem enabled_of_fired (h : ruleTurn earliestInstant sink entry now snapshot rule = .fired) :
    rule.enabled = true ∧ rule.coolingDown snapshot now = false := by
  unfold ruleTurn at h
  by_cases hskip : (!rule.enabled || rule.coolingDown snapshot now) = true
  · rw [if_pos hskip] at h
    cases h
  · simpa using hskip

/-- A rule of this id is among the rules and fires at the stored times. -/
def Fires (sink : Option InMemoryAuditSink) (entry : AuditEntry) (now : Int) (stored : HashMap String Int)
    (rules : List AuditRule) (id : String) : Prop :=
  ∃ rule ∈ rules, rule.id = id ∧ ruleTurn earliestInstant sink entry now stored rule = .fired

theorem fires_cons {rules : List AuditRule} {id : String} : Fires sink entry now stored (rule :: rules) id ↔
    rule.id = id ∧ ruleTurn earliestInstant sink entry now stored rule = .fired ∨ Fires sink entry now stored rules id := by
  unfold Fires
  simp

theorem fires_congr {rules : List AuditRule} {id : String} (h : snapshot.get? id = stored.get? id) :
    Fires sink entry now snapshot rules id ↔ Fires sink entry now stored rules id := by
  unfold Fires
  refine exists_congr (fun rule => and_congr_right (fun _ => and_congr_right (fun hid => ?_)))
  rw [ruleTurn_congr (hid ▸ h)]

/-! ## The turns -/

theorem turns_cons (rest : List AuditRule) (alerts : List AuditAlert) :
    turns earliestInstant sink entry now (rule :: rest) snapshot alerts =
      (turns earliestInstant sink entry now [rule] snapshot alerts).bind
        (fun left => turns earliestInstant sink entry now rest left.1 left.2) :=
  turns_append earliestInstant sink entry now rest [rule] snapshot alerts

theorem turns_singleton_eq_none_iff {alerts : List AuditAlert} :
    turns earliestInstant sink entry now [rule] snapshot alerts = none ↔
      ruleTurn earliestInstant sink entry now snapshot rule = .panicked := by
  rw [turns]
  cases ruleTurn earliestInstant sink entry now snapshot rule <;> simp [turns]

/-- The times that one turn leaves. -/
theorem get?_turn {alerts : List AuditAlert} {left : HashMap String Int × List AuditAlert}
    (h : turns earliestInstant sink entry now [rule] snapshot alerts = some left) (id : String) :
    left.1.get? id =
      if rule.id = id ∧ ruleTurn earliestInstant sink entry now snapshot rule = .fired then some now
      else snapshot.get? id := by
  rw [turns] at h
  cases hturn : ruleTurn earliestInstant sink entry now snapshot rule with
  | fired =>
    rw [hturn] at h
    obtain rfl := Option.some.inj h
    rw [HashMap.get?_insert]
    simp [eq_comm]
  | panicked =>
    rw [hturn] at h
    cases h
  | passedOver =>
    rw [hturn] at h
    obtain rfl := Option.some.inj h
    simp
  | unfired =>
    rw [hturn] at h
    obtain rfl := Option.some.inj h
    simp

/-- **The times that the turns leave**: the instant of the evaluation where a rule fired, the stored times elsewhere. -/
theorem get?_turns (id : String) : ∀ {rules : List AuditRule} {snapshot : HashMap String Int} {alerts : List AuditAlert}
    {left : HashMap String Int × List AuditAlert},
      turns earliestInstant sink entry now rules snapshot alerts = some left →
        (Fires sink entry now snapshot rules id → left.1.get? id = some now) ∧
          (¬ Fires sink entry now snapshot rules id → left.1.get? id = snapshot.get? id)
  | [], snapshot, alerts, left, h => by
    obtain rfl := Option.some.inj h
    exact ⟨fun hfires => by simp [Fires] at hfires, fun _ => rfl⟩
  | rule :: rest, snapshot, alerts, left, h => by
    rw [turns_cons, Option.bind_eq_some_iff] at h
    obtain ⟨mid, hturn, hrest⟩ := h
    have hmid := get?_turn hturn id
    obtain ⟨hfired, hkept⟩ := get?_turns id hrest
    rw [fires_cons]
    by_cases hthis : rule.id = id ∧ ruleTurn earliestInstant sink entry now snapshot rule = .fired
    · rw [if_pos hthis] at hmid
      refine ⟨fun _ => ?_, fun hnot => absurd (Or.inl hthis) hnot⟩
      by_cases hlater : Fires sink entry now mid.1 rest id
      · exact hfired hlater
      · rw [hkept hlater, hmid]
    · rw [if_neg hthis] at hmid
      rw [fires_congr hmid] at hfired hkept
      rw [hmid] at hkept
      rw [or_iff_right hthis]
      exact ⟨hfired, hkept⟩

/-- **A rule is due at its turn** when it is due by the stored times, and has no cooldown or is the first of its id to
fire. -/
theorem coolingDown_turns {pre : List AuditRule} {alerts : List AuditAlert}
    {left : HashMap String Int × List AuditAlert}
    (h : turns earliestInstant sink entry now pre stored alerts = some left) :
    rule.coolingDown left.1 now = false ↔ rule.coolingDown stored now = false ∧
      (rule.cooldownSecs = 0 ∨ ¬ Fires sink entry now stored pre rule.id) := by
  obtain ⟨hfired, hkept⟩ := get?_turns rule.id h
  by_cases hfires : Fires sink entry now stored pre rule.id
  · rw [coolingDown_of_now (hfired hfires)]
    constructor
    · intro hzero
      obtain ⟨earlier, -, hid, hturn⟩ := hfires
      exact ⟨coolingDown_of_cooldown_zero hid (enabled_of_fired hturn).2 hzero, Or.inl hzero⟩
    · rintro ⟨-, hzero | hnot⟩
      · exact hzero
      · exact absurd hfires hnot
  · rw [coolingDown_congr (hkept hfires)]
    exact ⟨fun hdue => ⟨hdue, Or.inr hfires⟩, fun hdue => hdue.1⟩

/-- Turns that do not end stop at one that panics. -/
theorem panicked_of_turns : ∀ {rules : List AuditRule} {snapshot : HashMap String Int} {alerts : List AuditAlert},
    turns earliestInstant sink entry now rules snapshot alerts = none →
      ∃ pre rule post left, rules = pre ++ rule :: post ∧
        turns earliestInstant sink entry now pre snapshot alerts = some left ∧
          ruleTurn earliestInstant sink entry now left.1 rule = .panicked
  | [], snapshot, alerts, h => by cases h
  | rule :: rest, snapshot, alerts, h => by
    rw [turns_cons] at h
    cases hturn : turns earliestInstant sink entry now [rule] snapshot alerts with
    | none => exact ⟨[], rule, rest, (snapshot, alerts), rfl, rfl, turns_singleton_eq_none_iff.1 hturn⟩
    | some mid =>
      rw [hturn] at h
      obtain ⟨pre, stop, post, left, rfl, hleft, hstop⟩ := panicked_of_turns h
      refine ⟨rule :: pre, stop, post, left, rfl, ?_, hstop⟩
      rw [turns_cons, hturn]
      exact hleft

end Turns

/-! ## The evaluation -/

/-- **The turn of a rule comes whose window overreaches**: one that is enabled and due by the stored times, without a
cooldown or with no rule of its id firing before it. -/
def OverreachingTurn (w : EngineState) (entry : AuditEntry) : Prop :=
  ∃ pre rule post, w.rules = pre ++ rule :: post ∧ w.sink.isSome = true ∧ rule.Overreaches w.now ∧ rule.enabled = true ∧
    rule.coolingDown w.lastTriggered w.now = false ∧
      (rule.cooldownSecs = 0 ∨ ¬ Fires w.sink entry w.now w.lastTriggered pre rule.id)

theorem turns_eq_none_iff {w : EngineState} (hclock : w.now ≤ latestInstant) (entry : AuditEntry) :
    turns earliestInstant w.sink entry w.now w.rules w.lastTriggered [] = none ↔ OverreachingTurn w entry := by
  constructor
  · intro h
    obtain ⟨pre, rule, post, left, hrules, hleft, hturn⟩ := panicked_of_turns h
    obtain ⟨⟨henabled, hdue⟩, hsink, hover⟩ := (ruleTurn_eq_panicked_iff hclock).1 hturn
    obtain ⟨hstored, hfirst⟩ := (coolingDown_turns hleft).1 hdue
    exact ⟨pre, rule, post, hrules, hsink, hover, henabled, hstored, hfirst⟩
  · rintro ⟨pre, rule, post, hrules, hsink, hover, henabled, hstored, hfirst⟩
    rw [hrules, turns_append]
    cases hleft : turns earliestInstant w.sink entry w.now pre w.lastTriggered [] with
    | none => rfl
    | some left =>
      have hdue := (coolingDown_turns hleft).2 ⟨hstored, hfirst⟩
      rw [Option.bind_some, turns, (ruleTurn_eq_panicked_iff hclock).2 ⟨⟨henabled, hdue⟩, hsink, hover⟩]

/-- The denials of the entry's subject that the sink retains. -/
def retainedDenials (sink : InMemoryAuditSink) (entry : AuditEntry) : Nat :=
  sink.entries.countP (fun denial => decide (denial.subjectId = entry.subjectId ∧ denial.granted = false))

/-- **An evaluation is total**: it completes, and a window longer than the past counts the whole of it. -/
structure Total (w : EngineState) (entry : AuditEntry) : Prop where
  completes : ∃ alerts, Answers earliestInstant w (.readRules entry) (.alerts alerts)
  countsAll : ∀ sink pre rule post (windowSecs minCount : Nat) left, w.sink = some sink → w.rules = pre ++ rule :: post →
    turns earliestInstant w.sink entry w.now pre w.lastTriggered [] = some left →
      rule.condition = .rapidDenials windowSecs minCount → w.now - windowSecs * nanosPerSec < earliestInstant →
        rule.enabled = true → rule.coolingDown left.1 w.now = false →
          ruleTurn earliestInstant w.sink entry w.now left.1 rule =
            if minCount ≤ retainedDenials sink entry then .fired else .unfired

theorem completes_iff (w : EngineState) (entry : AuditEntry) :
    (∃ alerts, Answers earliestInstant w (.readRules entry) (.alerts alerts)) ↔
      turns earliestInstant w.sink entry w.now w.rules w.lastTriggered [] ≠ none := by
  have hturns := answers_readRules earliestInstant w entry
  constructor
  · rintro ⟨alerts, hanswers⟩ hnone
    rw [hnone] at hturns
    have hsame := hanswers.unique hturns
    cases hsame
  · intro h
    obtain ⟨⟨snapshot, alerts⟩, hsome⟩ := Option.ne_none_iff_exists'.1 h
    rw [hsome] at hturns
    exact ⟨alerts, hturns⟩

/-- **An evaluation is total exactly when no turn comes whose window overreaches.** -/
theorem evaluate_total_iff (w : EngineState) (entry : AuditEntry) (hclock : w.now ≤ latestInstant) :
    Total w entry ↔ ¬ OverreachingTurn w entry := by
  rw [← turns_eq_none_iff hclock entry]
  constructor
  · exact fun h => (completes_iff w entry).1 h.completes
  · intro h
    refine ⟨(completes_iff w entry).2 h, ?_⟩
    intro sink pre rule post windowSecs minCount left hsink hrules hleft hcondition hover henabled hdue
    -- such a turn panics, and the turns have ended
    refine absurd ?_ h
    have hpanics : ruleTurn earliestInstant w.sink entry w.now left.1 rule = .panicked := by
      refine (ruleTurn_eq_panicked_iff hclock).2 ⟨⟨henabled, hdue⟩, by rw [hsink]; rfl, ?_⟩
      unfold AuditRule.Overreaches
      rw [hcondition]
      exact hover
    rw [hrules, turns_append, hleft, Option.bind_some, turns, hpanics]

theorem evaluate_total_burst : Total (burstEngine burst) thirdDenial := by
  have hclock : (burstEngine burst).now ≤ latestInstant := by decide +kernel
  refine (evaluate_total_iff (burstEngine burst) thirdDenial hclock).2 ?_
  rw [← turns_eq_none_iff hclock]
  decide +kernel

/-- A window of all the seconds of a `u64`. -/
def everBurst : AuditCondition := .rapidDenials (2 ^ 64 - 1) 2

/-- Two denials are retained, and the evaluation panics. -/
theorem evaluate_not_total : ¬ Total (burstEngine everBurst) thirdDenial := by
  intro h
  refine (completes_iff _ _).1 h.completes ?_
  decide +kernel

/-! ## Runs -/

/-- Evaluations, and rules whose windows do not overreach at the instant. -/
def WithinReach (start : Int) : EngineEvent → Prop
  | .spawn call => ∃ entry, call = .readRules entry
  | .env (.addRule rule) => ¬ rule.Overreaches start
  | _ => True

/-- The evaluation has no window ahead that overreaches. -/
def EvaluateCall.WithinReach (start : Int) : EvaluateCall → Prop
  | .readTriggered _ rules => ∀ rule ∈ rules, ¬ rule.Overreaches start
  | .readClock _ rules _ => ∀ rule ∈ rules, ¬ rule.Overreaches start
  | .countDenials _ now windowSecs _ _ rest _ _ =>
    start ≤ now ∧ windowStart earliestInstant now windowSecs ≠ none ∧ ∀ rule ∈ rest, ¬ rule.Overreaches start
  | _ => True

section Runs
variable {start : Int} {w : EngineState} {call : EvaluateCall} {es : List EngineEvent}

/-- A window that begins at an instant does so ever after. -/
theorem windowStart_ne_none_of_le {now : Int} {windowSecs : Nat} (hclock : start ≤ latestInstant) (hle : start ≤ now)
    (h : earliestInstant ≤ start - windowSecs * nanosPerSec) : windowStart earliestInstant now windowSecs ≠ none := by
  have hstart : windowStart earliestInstant start windowSecs ≠ none :=
    fun hnone => absurd ((windowStart_eq_none_iff hclock windowSecs).1 hnone) (Int.not_lt.2 h)
  unfold windowStart at hstart ⊢
  dsimp only at hstart ⊢
  rw [ne_eq, ite_eq_left_iff, not_forall] at hstart
  obtain ⟨hgood, -⟩ := hstart
  rw [not_or, Int.not_lt] at hgood
  rw [if_neg]
  · simp
  · rw [not_or, Int.not_lt]
    exact ⟨hgood.1, Int.le_trans hgood.2 (Int.sub_le_sub_right hle _)⟩

theorem withinReach_scanRules {now : Int} (hclock : start ≤ latestInstant) (hle : start ≤ now) (hasSink : Bool)
    (entry : AuditEntry) : ∀ (rules : List AuditRule) (snapshot : HashMap String Int) (alerts : List AuditAlert),
      (∀ rule ∈ rules, ¬ rule.Overreaches start) →
        (scanRules hasSink entry now rules snapshot alerts).WithinReach start
  | [], _, _, _ => trivial
  | rule :: rest, snapshot, alerts, h => by
    have hrest : ∀ rule ∈ rest, ¬ rule.Overreaches start := fun rule hrule => h rule (List.mem_cons_of_mem _ hrule)
    have ih := fun snapshot alerts => withinReach_scanRules hclock hle hasSink entry rest snapshot alerts hrest
    unfold scanRules
    split
    · exact ih snapshot alerts
    · split
      · next windowSecs minCount hcondition =>
        split
        · have hreach := h rule List.mem_cons_self
          unfold AuditRule.Overreaches at hreach
          rw [hcondition] at hreach
          exact ⟨hle, windowStart_ne_none_of_le hclock hle (Int.not_lt.1 hreach), hrest⟩
        · exact ih snapshot alerts
      · split
        · exact ih _ _
        · exact ih snapshot alerts

/-- **A step of an evaluation within reach** leaves it so, and does not panic. -/
theorem withinReach_next (hclock : start ≤ latestInstant) (hle : start ≤ w.now)
    (hrules : ∀ rule ∈ w.rules, ¬ rule.Overreaches start) (hcall : call.WithinReach start) :
    (call.next earliestInstant w).2.1.WithinReach start ∧ (call.next earliestInstant w).2.2 ≠ some .panicked := by
  cases call with
  | readRules entry => exact ⟨hrules, by simp [EvaluateCall.next]⟩
  | readTriggered entry rules => exact ⟨hcall, by simp [EvaluateCall.next]⟩
  | readClock entry rules snapshot =>
    exact ⟨withinReach_scanRules hclock hle _ entry rules snapshot [] hcall, by simp [EvaluateCall.next]⟩
  | countDenials entry now windowSecs minCount rule rest snapshot alerts =>
    obtain ⟨hnow, hwindow, hrest⟩ := hcall
    obtain ⟨since, hsince⟩ := Option.ne_none_iff_exists'.1 hwindow
    unfold EvaluateCall.next
    dsimp only
    rw [hsince]
    dsimp only
    split
    · exact ⟨withinReach_scanRules hclock hnow _ entry rest _ _ hrest, by simp⟩
    · exact ⟨withinReach_scanRules hclock hnow _ entry rest _ _ hrest, by simp⟩
  | writeBack snapshot alerts => exact ⟨trivial, by simp [EvaluateCall.next]⟩
  | returned => exact ⟨trivial, by simp [EvaluateCall.next]⟩

/-- Time has not gone back, and no rule of the engine overreaches. -/
def EngineWithinReach (start : Int) (w : EngineState) : Prop :=
  start ≤ w.now ∧ ∀ rule ∈ w.rules, ¬ rule.Overreaches start

theorem engineWithinReach_next (h : EngineWithinReach start w) : EngineWithinReach start (call.next earliestInstant w).1 := by
  obtain ⟨hnow, hsame⟩ := now_next earliestInstant w call
  unfold EngineWithinReach
  rw [hnow, hsame]
  exact h

theorem engineWithinReach_perform (h : EngineWithinReach start w) {op : EngineOp} (hop : WithinReach start (.env op)) :
    EngineWithinReach start (op.perform w) := by
  cases op with
  | elapse nanos => exact ⟨Int.le_trans h.1 (Int.le_add_of_nonneg_right (Int.natCast_nonneg nanos)), h.2⟩
  | append entry => exact h
  | addRule rule =>
    refine ⟨h.1, fun rule' hrule' => ?_⟩
    rcases List.mem_append.1 hrule' with hrule' | hrule'
    · exact h.2 rule' hrule'
    · rw [List.mem_singleton.1 hrule']
      exact hop
  | removeRule ruleId => exact ⟨h.1, fun rule hrule => h.2 rule (List.mem_filter.1 hrule).1⟩

theorem withinReach_run (hclock : start ≤ latestInstant) (h : EngineWithinReach start w)
    (hes : ∀ e ∈ es, WithinReach start e) :
    PoolInv (EngineWithinReach start) (fun _ _ call => call.WithinReach start)
      ((engineMachine earliestInstant).run ⟨w, []⟩ es) := by
  refine (engineMachine earliestInstant).run_invariant (fun _ e => WithinReach start e) _ ?_ _ es
    (PoolInv.empty _ h) ((engineMachine earliestInstant).along_of_forall _ _ es (fun _ => hes))
  intro p e hp he
  refine PoolInv.step hp e ?_ ?_ ?_ ?_
  · rintro call rfl
    obtain ⟨entry, rfl⟩ := he
    exact ⟨hp.1, trivial, fun _ _ hcall => hcall⟩
  · intro i input call _ _ hcall
    exact ⟨engineWithinReach_next hp.1, (withinReach_next hclock hp.1.1 hp.1.2 hcall).1, fun _ _ _ _ hcall' => hcall'⟩
  · intro i input _ _
    exact ⟨hp.1, fun _ _ hcall => hcall⟩
  · rintro op rfl
    exact ⟨engineWithinReach_perform hp.1 he, fun _ _ _ hcall => hcall⟩

/-- **No evaluation of a run panics** where no rule of the run overreaches at its start. -/
theorem unpanicked_run (hclock : w.now ≤ latestInstant) (hrules : ∀ rule ∈ w.rules, ¬ rule.Overreaches w.now)
    (hes : ∀ e ∈ es, WithinReach w.now e) {n i : Nat} (he : es[n]? = some (.step i ())) :
    (engineMachine earliestInstant).out ((engineMachine earliestInstant).run ⟨w, []⟩ (es.take n)) (.step i ()) ≠
      some .panicked := by
  intro hout
  obtain ⟨call, hsteps, hanswer⟩ := Lib.Program.exists_stepsAt he hout (by simp [engineProgram])
  have htaken : ∀ e ∈ es.take n, WithinReach w.now e := fun e he => hes e (List.mem_of_mem_take he)
  have hinv := withinReach_run hclock ⟨Int.le_refl _, hrules⟩ htaken
  exact (withinReach_next hclock hinv.1.1 hinv.1.2 (hinv.2 i call hsteps.2)).2 hanswer

end Runs

end Audit
end Rbac
end Kirino
