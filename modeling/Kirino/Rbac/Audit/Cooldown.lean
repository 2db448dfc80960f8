import Mathlib.Data.List.Nodup
import Kirino.Lib.WriteBack
import Kirino.Rbac.Audit.Engine
/-!
# Cooldown — firings of one rule (`rbac/audit.rs`)

An evaluation decides on a copy of the times the rules were last triggered and writes the whole copy back.  Where no
other evaluation writes between the two (`NoOverlap`), the firings of a rule are its cooldown apart and the stored times
go forward (`cooldownKept`).  Overlapping evaluations both fire, and the later write may take a time back.
-/
namespace Kirino
namespace Rbac
namespace Audit

open Lib (HashMap Machine PoolEvent PoolInv nanosPerSec numSeconds)
open Lib.Program (WriteBack)

/-- No time of the map is after the instant. -/
def Before (times : HashMap String Int) (now : Int) : Prop := ∀ id t, times.get? id = some t → t ≤ now

/-- How far an evaluation has got that read `read` and the clock: the times it has changed, the alerts it has raised, and
the rules ahead. -/
structure Scanned (engineRules rest : List AuditRule) (now : Int) (read snapshot : HashMap String Int)
    (alerts : List AuditAlert) : Prop where
  triggered : ∀ id, snapshot.get? id = if id ∈ alerts.map AuditAlert.ruleId then some now else read.get? id
  once : (alerts.map AuditAlert.ruleId).Nodup
  due : ∀ alert ∈ alerts, alert.createdAt = now ∧ ∀ rule ∈ engineRules, rule.id = alert.ruleId →
    ∀ last, read.get? rule.id = some last → last + rule.cooldownSecs * nanosPerSec ≤ now
  before : Before read now
  ahead : ∀ rule ∈ rest, rule ∈ engineRules ∧ rule.id ∉ alerts.map AuditAlert.ruleId
  distinct : (rest.map AuditRule.id).Nodup

namespace EvaluateCall

/-- What the evaluation has made of the times that it read. -/
def MadeFrom (engineRules : List AuditRule) (read : HashMap String Int) : EvaluateCall → Prop
  | readClock _ _ snapshot => snapshot = read
  | countDenials _ now _ _ rule rest snapshot alerts =>
    Scanned engineRules (rule :: rest) now read snapshot alerts ∧ rule.coolingDown snapshot now = false
  | writeBack snapshot alerts => ∃ now, Scanned engineRules [] now read snapshot alerts
  | _ => True

def ReadsTriggered : EvaluateCall → Prop
  | readTriggered _ _ => True
  | _ => False

def WritesTriggered : EvaluateCall → Prop
  | writeBack _ _ => True
  | _ => False

def CarriesTriggered : EvaluateCall → Prop
  | readClock _ _ _ => True
  | countDenials _ _ _ _ _ _ _ _ => True
  | writeBack _ _ => True
  | _ => False

/-- The evaluation goes by the rules of the engine, and no time that it holds is in the future. -/
def GoesBy (engineRules : List AuditRule) (w : EngineState) : EvaluateCall → Prop
  | readTriggered _ rules => rules = engineRules
  | readClock _ rules snapshot => rules = engineRules ∧ Before snapshot w.now
  | countDenials _ now _ _ _ _ snapshot _ => now ≤ w.now ∧ Before snapshot now
  | writeBack snapshot _ => Before snapshot w.now
  | _ => True

end EvaluateCall

/-- Evaluations write back what they made of the times that they have read. -/
def triggeredWriteBack (engineRules : List AuditRule) : WriteBack EngineState EvaluateCall (HashMap String Int) where
  view w := w.lastTriggered
  Reads := EvaluateCall.ReadsTriggered
  Writes := EvaluateCall.WritesTriggered
  Carries := EvaluateCall.CarriesTriggered
  Made call read := call.MadeFrom engineRules read

/-- The engine has these rules, and no stored time is in the future. -/
def InForce (engineRules : List AuditRule) (w : EngineState) : Prop := w.rules = engineRules ∧ Before w.lastTriggered w.now

/-- Evaluations, while time passes and entries are appended. -/
def Evaluations : EngineEvent → Prop
  | .spawn call => ∃ entry, call = .readRules entry
  | .step _ _ => True
  | .env (.elapse _) => True
  | .env (.append _) => True
  | .env (.addRule _) => False
  | .env (.removeRule _) => False

section Definitions
variable (earliest : Int) (w : EngineState) (es : List EngineEvent)

/-- **No evaluation writes the times between another's read of them and its write.** -/
def NoOverlap : Prop := (triggeredWriteBack w.rules).StayCurrent (engineProgram earliest) ⟨w, []⟩ es

/-- Event `n` is the end of an evaluation, with these alerts. -/
def ReturnsAt (n : Nat) (alerts : List AuditAlert) : Prop :=
  ∃ i, es[n]? = some (.step i ()) ∧
    (engineMachine earliest).out ((engineMachine earliest).run ⟨w, []⟩ (es.take n)) (.step i ()) = some (.alerts alerts)

/-- The time stored for a rule after the first `n` events. -/
def triggeredAt (n : Nat) (id : String) : Option Int :=
  ((engineMachine earliest).run ⟨w, []⟩ (es.take n)).shared.lastTriggered.get? id

/-- **Two firings of a rule are its cooldown apart, and the stored times never go back.** -/
structure CooldownKept : Prop where
  /-- An evaluation fires a rule once. -/
  once : ∀ n alerts, ReturnsAt earliest w es n alerts → (alerts.map AuditAlert.ruleId).Nodup
  /-- Two evaluations fire it with its cooldown in between. -/
  apart : ∀ n n' alerts alerts' alert alert' rule, ReturnsAt earliest w es n alerts → ReturnsAt earliest w es n' alerts' →
    n < n' → alert ∈ alerts → alert' ∈ alerts' → rule ∈ w.rules → alert.ruleId = rule.id → alert'.ruleId = rule.id →
    alert.createdAt + rule.cooldownSecs * nanosPerSec ≤ alert'.createdAt
  forward : ∀ m n id t, m ≤ n → triggeredAt earliest w es m id = some t →
    ∃ t', triggeredAt earliest w es n id = some t' ∧ t ≤ t'

end Definitions

/-! ## The loop over the rules -/

section Scan
variable {engineRules rest : List AuditRule} {rule : AuditRule} {now : Int} {read snapshot : HashMap String Int}
variable {alerts : List AuditAlert}

theorem due_of_not_coolingDown (h : rule.coolingDown snapshot now = false) {last : Int}
    (hlast : snapshot.get? rule.id = some last) (hbefore : last ≤ now) :
    last + rule.cooldownSecs * nanosPerSec ≤ now := by
  unfold AuditRule.coolingDown at h
  rw [hlast] at h
  simp only [Bool.or_eq_false_iff, decide_eq_false_iff_not] at h
  have hdiv : numSeconds (now - last) = (now - last) / nanosPerSec := Int.tdiv_eq_ediv_of_nonneg (by omega)
  rw [hdiv] at h
  have hsecs : (rule.cooldownSecs : Int) ≤ (now - last) / nanosPerSec := by omega
  have hnanos : (nanosPerSec : Int) = 1000000000 := rfl
  rw [hnanos] at hsecs ⊢
  omega

theorem Scanned.skip (h : Scanned engineRules (rule :: rest) now read snapshot alerts) :
    Scanned engineRules rest now read snapshot alerts :=
  { h with
    ahead := fun r hr => h.ahead r (List.mem_cons_of_mem rule hr)
    distinct := (List.nodup_cons.1 h.distinct).2 }

/-- **A rule fires**: its time is now, and the rules ahead are others. -/
theorem Scanned.fire (h : Scanned engineRules (rule :: rest) now read snapshot alerts)
    (hdistinct : (engineRules.map AuditRule.id).Nodup) (hdue : rule.coolingDown snapshot now = false) (entry : AuditEntry) :
    Scanned engineRules rest now read (snapshot.insert rule.id now) (alerts ++ [rule.alert entry now]) := by
  obtain ⟨hrule, hnew⟩ := h.ahead rule List.mem_cons_self
  have hids : (alerts ++ [rule.alert entry now]).map AuditAlert.ruleId = alerts.map AuditAlert.ruleId ++ [rule.id] := by
    simp [AuditRule.alert]
  refine ⟨fun id => ?_, ?_, fun alert halert => ?_, h.before, fun r hr => ⟨?_, ?_⟩, (List.nodup_cons.1 h.distinct).2⟩
  · rw [hids, HashMap.get?_insert, h.triggered id]
    by_cases hid : id = rule.id <;> simp [hid]
  · rw [hids, List.nodup_append]
    refine ⟨h.once, List.nodup_singleton _, fun a ha b hb => ?_⟩
    obtain rfl := List.mem_singleton.1 hb
    exact fun hab => hnew (hab ▸ ha)
  · rcases List.mem_append.1 halert with halert | halert
    · exact h.due alert halert
    · obtain rfl := List.mem_singleton.1 halert
      refine ⟨rfl, fun rule' hrule' hid last hlast => ?_⟩
      obtain rfl : rule' = rule := List.inj_on_of_nodup_map hdistinct hrule' hrule hid
      have hread : snapshot.get? rule'.id = some last := by rw [h.triggered, if_neg hnew, hlast]
      exact due_of_not_coolingDown hdue hread (h.before _ _ hlast)
  · exact (h.ahead r (List.mem_cons_of_mem rule hr)).1
  · rw [hids, List.mem_append, List.mem_singleton]
    rintro (hmem | hid)
    · exact (h.ahead r (List.mem_cons_of_mem rule hr)).2 hmem
    · exact (List.nodup_cons.1 h.distinct).1 (hid ▸ List.mem_map_of_mem hr)

/-- **The loop keeps what it has made**, up to the place that it stops at. -/
theorem madeFrom_scanRules (hdistinct : (engineRules.map AuditRule.id).Nodup) (hasSink : Bool) (entry : AuditEntry) :
    ∀ (rules : List AuditRule) (snapshot : HashMap String Int) (alerts : List AuditAlert),
      Scanned engineRules rules now read snapshot alerts →
      (scanRules hasSink entry now rules snapshot alerts).MadeFrom engineRules read
  | [], _, _, h => ⟨now, h⟩
  | rule :: rest, snapshot, alerts, h => by
    have ih := madeFrom_scanRules hdistinct hasSink entry rest
    unfold scanRules
    by_cases hskip : (!rule.enabled || rule.coolingDown snapshot now) = true
    · rw [if_pos hskip]
      exact ih snapshot alerts h.skip
    · rw [if_neg hskip]
      have hdue : rule.coolingDown snapshot now = false := by
        simp only [Bool.or_eq_true, not_or, Bool.not_eq_true] at hskip
        exact hskip.2
      split
      · split
        · exact ⟨h, hdue⟩
        · exact ih snapshot alerts h.skip
      · split
        · exact ih _ _ (h.fire hdistinct hdue entry)
        · exact ih snapshot alerts h.skip

theorem Before.insert (h : Before snapshot now) (id : String) : Before (snapshot.insert id now) now := by
  intro id' t ht
  rw [HashMap.get?_insert] at ht
  split at ht
  · exact Int.le_of_eq (Option.some.inj ht).symm
  · exact h id' t ht

theorem Before.mono (h : Before snapshot now) {later : Int} (hle : now ≤ later) : Before snapshot later :=
  fun id t ht => Int.le_trans (h id t ht) hle

theorem goesBy_scanRules {w : EngineState} (hnow : now ≤ w.now) (hasSink : Bool) (entry : AuditEntry) :
    ∀ (rules : List AuditRule) (snapshot : HashMap String Int) (alerts : List AuditAlert), Before snapshot now →
      (scanRules hasSink entry now rules snapshot alerts).GoesBy engineRules w
  | [], _, _, h => h.mono hnow
  | rule :: rest, snapshot, alerts, h => by
    have ih := goesBy_scanRules hnow hasSink entry rest
    unfold scanRules
    split
    · exact ih snapshot alerts h
    · split
      · split
        · exact ⟨hnow, h⟩
        · exact ih snapshot alerts h
      · split
        · exact ih _ _ (h.insert rule.id)
        · exact ih snapshot alerts h

end Scan

/-! ## One step -/

section Step
variable {earliest : Int} {engineRules : List AuditRule} {w : EngineState} {call : EvaluateCall}

theorem scanned_nil (hdistinct : (engineRules.map AuditRule.id).Nodup) {now : Int} {read : HashMap String Int}
    (h : Before read now) : Scanned engineRules engineRules now read read [] := by
  refine ⟨fun id => ?_, List.nodup_nil, fun alert halert => ?_, h, fun rule hrule => ⟨hrule, ?_⟩, hdistinct⟩
  · rw [List.map_nil, if_neg List.not_mem_nil]
  · exact absurd halert List.not_mem_nil
  · exact List.not_mem_nil

theorem Before.insertAll {times snapshot : HashMap String Int} {now : Int} (h : Before times now)
    (hsnapshot : Before snapshot now) : Before (times.insertAll snapshot) now := by
  intro id t ht
  rw [HashMap.get?_insertAll, Option.or_eq_some_iff] at ht
  rcases ht with ht | ⟨-, ht⟩
  · exact hsnapshot id t ht
  · exact h id t ht

theorem now_next (earliest : Int) (w : EngineState) (call : EvaluateCall) :
    (call.next earliest w).1.now = w.now ∧ (call.next earliest w).1.rules = w.rules := by
  cases call with
  | countDenials entry now windowSecs minCount rule rest snapshot alerts =>
    unfold EvaluateCall.next
    dsimp only
    split
    · exact ⟨rfl, rfl⟩
    · split <;> exact ⟨rfl, rfl⟩
  | _ => exact ⟨rfl, rfl⟩

theorem lastTriggered_next (hnot : ¬ call.WritesTriggered) :
    (call.next earliest w).1.lastTriggered = w.lastTriggered := by
  cases call with
  | countDenials entry now windowSecs minCount rule rest snapshot alerts =>
    unfold EvaluateCall.next
    dsimp only
    split
    · rfl
    · split <;> rfl
  | writeBack snapshot alerts => exact absurd trivial hnot
  | _ => rfl

theorem goesBy_mono {w' : EngineState} (hnow : w.now ≤ w'.now) (h : call.GoesBy engineRules w) :
    call.GoesBy engineRules w' := by
  cases call with
  | readClock entry rules snapshot => exact ⟨h.1, h.2.mono hnow⟩
  | countDenials entry now windowSecs minCount rule rest snapshot alerts => exact ⟨Int.le_trans h.1 hnow, h.2⟩
  | writeBack snapshot alerts => exact h.mono hnow
  | _ => exact h

theorem inForce_next (hforce : InForce engineRules w) (hgoes : call.GoesBy engineRules w) :
    InForce engineRules (call.next earliest w).1 := by
  obtain ⟨hnow, hrules⟩ := now_next earliest w call
  refine ⟨hrules.trans hforce.1, ?_⟩
  rw [hnow]
  by_cases hwrites : call.WritesTriggered
  · cases call with
    | writeBack snapshot alerts => exact hforce.2.insertAll hgoes
    | _ => exact hwrites.elim
  · rw [lastTriggered_next hwrites]
    exact hforce.2

theorem goesBy_next (hforce : InForce engineRules w) (hgoes : call.GoesBy engineRules w) :
    (call.next earliest w).2.1.GoesBy engineRules (call.next earliest w).1 := by
  refine goesBy_mono (Int.le_of_eq (now_next earliest w call).1.symm) ?_
  cases call with
  | readRules entry => exact hforce.1
  | readTriggered entry rules => exact ⟨hgoes, hforce.2⟩
  | readClock entry rules snapshot => exact goesBy_scanRules (Int.le_refl _) _ entry rules snapshot [] hgoes.2
  | countDenials entry now windowSecs minCount rule rest snapshot alerts =>
    unfold EvaluateCall.next
    dsimp only
    split
    · trivial
    · split
      · exact goesBy_scanRules hgoes.1 _ entry rest _ _ (hgoes.2.insert rule.id)
      · exact goesBy_scanRules hgoes.1 _ entry rest _ _ hgoes.2
  | writeBack snapshot alerts => trivial
  | returned => trivial

/-- **What an evaluation carries** it has just read, or made of what it carried before. -/
theorem madeFrom_next (hdistinct : (engineRules.map AuditRule.id).Nodup) (hgoes : call.GoesBy engineRules w)
    (hcarries : (call.next earliest w).2.1.CarriesTriggered) :
    call.ReadsTriggered ∧ (call.next earliest w).2.1.MadeFrom engineRules w.lastTriggered ∨
      call.CarriesTriggered ∧
        ∀ read, call.MadeFrom engineRules read → (call.next earliest w).2.1.MadeFrom engineRules read := by
  cases call with
  | readTriggered entry rules => exact Or.inl ⟨trivial, rfl⟩
  | readClock entry rules snapshot =>
    refine Or.inr ⟨trivial, ?_⟩
    rintro read rfl
    obtain ⟨rfl, hbefore⟩ := hgoes
    exact madeFrom_scanRules hdistinct _ entry rules snapshot [] (scanned_nil hdistinct hbefore)
  | countDenials entry now windowSecs minCount rule rest snapshot alerts =>
    refine Or.inr ⟨trivial, ?_⟩
    rintro read ⟨hscanned, hdue⟩
    unfold EvaluateCall.next
    dsimp only
    split
    · trivial
    · split
      · exact madeFrom_scanRules hdistinct _ entry rest _ _ (hscanned.fire hdistinct hdue entry)
      · exact madeFrom_scanRules hdistinct _ entry rest _ _ hscanned.skip
  | _ => exact hcarries.elim

theorem triggeredWriteBack_lawful (earliest : Int) (hdistinct : (engineRules.map AuditRule.id).Nodup) :
    (triggeredWriteBack engineRules).Lawful (engineProgram earliest) Evaluations (InForce engineRules)
      (fun w call => call.GoesBy engineRules w) where
  spawn w call hspawn _ := by
    obtain ⟨entry, rfl⟩ := hspawn
    exact ⟨trivial, not_false⟩
  next _ _ w call _ hforce hgoes := ⟨inForce_next hforce hgoes, goesBy_next hforce hgoes, madeFrom_next hdistinct hgoes⟩
  other _ _ w call call' _ _ _ hgoes := goesBy_mono (Int.le_of_eq (now_next earliest w call).1.symm) hgoes
  quiet _ _ w call _ hnot := lastTriggered_next hnot
  env op w hop hforce := by
    cases op with
    | elapse nanos =>
      have hnow : w.now ≤ w.now + nanos := by omega
      exact ⟨⟨hforce.1, hforce.2.mono hnow⟩, rfl, fun call hgoes => goesBy_mono hnow hgoes⟩
    | append entry => exact ⟨hforce, rfl, fun call hgoes => goesBy_mono (Int.le_refl _) hgoes⟩
    | addRule rule => exact hop.elim
    | removeRule ruleId => exact hop.elim
  reads call hreads := by cases call <;> first | exact not_false | exact hreads.elim

end Step

/-! ## Runs -/

section Runs
variable {earliest : Int} {w : EngineState} {es : List EngineEvent}

/-- **An evaluation returns over the times that it read**, where none overlap. -/
theorem scanned_at (hdistinct : (w.rules.map AuditRule.id).Nodup) (hbefore : Before w.lastTriggered w.now)
    (hes : ∀ e ∈ es, Evaluations e) (hoverlap : NoOverlap earliest w es) {n i : Nat}
    {snapshot : HashMap String Int} {alerts : List AuditAlert}
    (hsteps : (engineProgram earliest).StepsAt ⟨w, []⟩ es n i () (.writeBack snapshot alerts)) :
    ∃ now, Scanned w.rules [] now
      ((engineMachine earliest).run ⟨w, []⟩ (es.take n)).shared.lastTriggered snapshot alerts :=
  (triggeredWriteBack_lawful earliest hdistinct).made_at ⟨rfl, hbefore⟩ hes hoverlap hsteps trivial trivial

theorem ReturnsAt.writeBack {n : Nat} {alerts : List AuditAlert} (h : ReturnsAt earliest w es n alerts) :
    ∃ i snapshot, (engineProgram earliest).StepsAt ⟨w, []⟩ es n i () (.writeBack snapshot alerts) := by
  obtain ⟨i, he, hout⟩ := h
  obtain ⟨call, hsteps, hanswer⟩ := Lib.Program.exists_stepsAt he hout nofun
  cases call with
  | writeBack snapshot alerts' =>
    obtain rfl : alerts' = alerts := EvaluateAnswer.alerts.inj (Option.some.inj hanswer)
    exact ⟨i, snapshot, hsteps⟩
  | countDenials entry now windowSecs minCount rule rest snapshot alerts' =>
    revert hanswer
    show (EvaluateCall.next earliest _ _).2.2 = _ → _
    unfold EvaluateCall.next
    dsimp only
    split
    · exact fun h => by cases h
    · split <;> exact fun h => by cases h
  | _ => cases hanswer

/-- **What a write makes of the stored times**: the rules that fired have the evaluation's instant, the others their own. -/
theorem triggered_write {n i : Nat} {now : Int} {snapshot : HashMap String Int} {alerts : List AuditAlert}
    (hsteps : (engineProgram earliest).StepsAt ⟨w, []⟩ es n i () (.writeBack snapshot alerts))
    (h : Scanned w.rules [] now ((engineMachine earliest).run ⟨w, []⟩ (es.take n)).shared.lastTriggered snapshot alerts)
    (id : String) : triggeredAt earliest w es (n + 1) id =
      if id ∈ alerts.map AuditAlert.ruleId then some now else triggeredAt earliest w es n id := by
  obtain ⟨he, hcall⟩ := hsteps
  have hstep : triggeredAt earliest w es (n + 1) id =
      (((engineMachine earliest).run ⟨w, []⟩ (es.take n)).shared.lastTriggered.insertAll snapshot).get? id := by
    unfold triggeredAt
    rw [(engineMachine earliest).run_take_succ _ he]
    exact congrArg (fun p => p.shared.lastTriggered.get? id) ((engineProgram earliest).machine_step hcall ()).1
  rw [hstep, HashMap.get?_insertAll, h.triggered id]
  unfold triggeredAt
  split
  · rfl
  · exact Option.or_self

/-- **A stored time goes forward** at every event. -/
theorem triggered_succ (hdistinct : (w.rules.map AuditRule.id).Nodup) (hbefore : Before w.lastTriggered w.now)
    (hes : ∀ e ∈ es, Evaluations e) (hoverlap : NoOverlap earliest w es) {n : Nat} {id : String} {t : Int}
    (ht : triggeredAt earliest w es n id = some t) : ∃ t', triggeredAt earliest w es (n + 1) id = some t' ∧ t ≤ t' := by
  by_cases hwrites : ∃ i snapshot alerts, (engineProgram earliest).StepsAt ⟨w, []⟩ es n i () (.writeBack snapshot alerts)
  · obtain ⟨i, snapshot, alerts, hsteps⟩ := hwrites
    obtain ⟨now, hscanned⟩ := scanned_at hdistinct hbefore hes hoverlap hsteps
    rw [triggered_write hsteps hscanned id]
    split
    · exact ⟨now, rfl, hscanned.before id t ht⟩
    · exact ⟨t, ht, Int.le_refl t⟩
  · refine ⟨t, ?_, Int.le_refl t⟩
    rw [← ht]
    unfold triggeredAt
    cases he : es[n]? with
    | none =>
      have hlength := List.getElem?_eq_none_iff.1 he
      rw [List.take_of_length_le hlength, List.take_of_length_le (Nat.le_succ_of_le hlength)]
    | some e =>
      rw [(engineMachine earliest).run_take_succ _ he]
      have hC := triggeredWriteBack_lawful earliest hdistinct
      refine congrArg (fun m => HashMap.get? m id) (hC.view_step (hes e (List.mem_of_getElem? he))
        (hC.life_at ⟨rfl, hbefore⟩ hes n).1 ?_)
      rintro i input call rfl hcall hcallWrites
      cases call with
      | writeBack snapshot alerts => exact hwrites ⟨i, snapshot, alerts, he, hcall⟩
      | _ => exact hcallWrites

theorem triggered_mono (hdistinct : (w.rules.map AuditRule.id).Nodup) (hbefore : Before w.lastTriggered w.now)
    (hes : ∀ e ∈ es, Evaluations e) (hoverlap : NoOverlap earliest w es) {m n : Nat} (hmn : m ≤ n) {id : String} {t : Int}
    (ht : triggeredAt earliest w es m id = some t) : ∃ t', triggeredAt earliest w es n id = some t' ∧ t ≤ t' := by
  induction hmn with
  | refl => exact ⟨t, ht, Int.le_refl t⟩
  | step _ ih =>
    obtain ⟨t', ht', hle⟩ := ih
    obtain ⟨t'', ht'', hle'⟩ := triggered_succ hdistinct hbefore hes hoverlap ht'
    exact ⟨t'', ht'', Int.le_trans hle hle'⟩

/-- **The cooldown is kept where evaluations do not overlap**: from any rules with distinct ids and any times that are not
in the future. -/
theorem cooldownKept (earliest : Int) (w : EngineState) (es : List EngineEvent)
    (hdistinct : (w.rules.map AuditRule.id).Nodup) (hbefore : Before w.lastTriggered w.now)
    (hes : ∀ e ∈ es, Evaluations e) (hoverlap : NoOverlap earliest w es) : CooldownKept earliest w es := by
  refine ⟨?_, ?_, fun m n id t hmn ht => triggered_mono hdistinct hbefore hes hoverlap hmn ht⟩
  · intro n alerts hreturns
    obtain ⟨i, snapshot, hsteps⟩ := hreturns.writeBack
    obtain ⟨now, hscanned⟩ := scanned_at hdistinct hbefore hes hoverlap hsteps
    exact hscanned.once
  · intro n n' alerts alerts' alert alert' rule hreturns hreturns' hnn' halert halert' hrule hid hid'
    obtain ⟨i, snapshot, hsteps⟩ := hreturns.writeBack
    obtain ⟨i', snapshot', hsteps'⟩ := hreturns'.writeBack
    obtain ⟨now, hscanned⟩ := scanned_at hdistinct hbefore hes hoverlap hsteps
    obtain ⟨now', hscanned'⟩ := scanned_at hdistinct hbefore hes hoverlap hsteps'
    -- the first firing is stored, and the second is due by what is stored then
    have hstored : triggeredAt earliest w es (n + 1) rule.id = some now := by
      rw [triggered_write hsteps hscanned, if_pos (hid ▸ List.mem_map_of_mem halert)]
    obtain ⟨last, hlast, hle⟩ := triggered_mono hdistinct hbefore hes hoverlap hnn' hstored
    have hdue := (hscanned'.due alert' halert').2 rule hrule hid'.symm last hlast
    rw [(hscanned.due alert halert).1, (hscanned'.due alert' halert').1]
    omega

end Runs

/-! ## Two evaluations, one after the other and overlapping -/

def denialRule : AuditRule := ⟨"deny", "denials", true, .denied, .notify "ops" "denied", 60⟩

def denialEngine : EngineState := ⟨[denialRule], HashMap.empty, none, 0⟩

def deniedEntry : AuditEntry := ⟨1, "bob", "user", "doc:write", "/docs", false, 0, none⟩

/-- A minute passes between the two evaluations. -/
def consecutiveEvaluations : List EngineEvent :=
  [.spawn (.readRules deniedEntry), .step 0 (), .step 0 (), .step 0 (), .step 0 (), .env (.elapse (60 * 10 ^ 9)),
    .spawn (.readRules deniedEntry), .step 1 (), .step 1 (), .step 1 (), .step 1 ()]

/-- The second evaluation reads the times before the first writes them. -/
def overlappingEvaluations : List EngineEvent :=
  [.spawn (.readRules deniedEntry), .spawn (.readRules deniedEntry), .step 0 (), .step 0 (), .step 1 (), .step 1 (),
    .step 0 (), .step 0 (), .step 1 (), .step 1 ()]

/-- Where the run reads the stored times and writes them. -/
def consecutivePlaces (n i : Nat) : EvaluateCall → Bool
  | .readTriggered _ _ => n == 2 && i == 0 || n == 8 && i == 1
  | .writeBack _ _ => n == 4 && i == 0 || n == 10 && i == 1
  | _ => true

theorem consecutive_places {n i : Nat} {input : Unit} {call : EvaluateCall}
    (h : (engineProgram 0).StepsAt ⟨denialEngine, []⟩ consecutiveEvaluations n i input call) :
    (call.ReadsTriggered → n = 2 ∧ i = 0 ∨ n = 8 ∧ i = 1) ∧ (call.WritesTriggered → n = 4 ∧ i = 0 ∨ n = 10 ∧ i = 1) := by
  have hplaces : consecutivePlaces n i call = true := h.check (by decide +kernel)
  cases call with
  | readTriggered entry rules => exact ⟨fun _ => by simpa [consecutivePlaces] using hplaces, False.elim⟩
  | writeBack snapshot alerts => exact ⟨False.elim, fun _ => by simpa [consecutivePlaces] using hplaces⟩
  | _ => exact ⟨False.elim, False.elim⟩

theorem cooldownKept_consecutive : CooldownKept 0 denialEngine consecutiveEvaluations := by
  refine cooldownKept 0 denialEngine consecutiveEvaluations (by decide) (fun id t ht => by cases ht) ?_ ?_
  · intro e he
    simp only [consecutiveEvaluations, List.mem_cons, List.not_mem_nil, or_false] at he
    rcases he with rfl | rfl | rfl | rfl | rfl | rfl | rfl | rfl | rfl | rfl | rfl <;> first | trivial | exact ⟨_, rfl⟩
  · rintro i r n ⟨_, t, hread, hreads⟩ ⟨_, t', hwrite, hwrites⟩ k j hrk hkn ⟨_, t'', hother, hotherWrites⟩
    obtain ⟨hrr, -⟩ := consecutive_places hread
    obtain ⟨-, hnn⟩ := consecutive_places hwrite
    obtain ⟨-, hkk⟩ := consecutive_places hother
    rcases hrr hreads with ⟨rfl, rfl⟩ | ⟨rfl, rfl⟩ <;> rcases hnn hwrites with ⟨rfl, hi⟩ | ⟨rfl, hi⟩ <;>
      rcases hkk hotherWrites with ⟨rfl, -⟩ | ⟨rfl, -⟩ <;> omega

/-- Both evaluations fire the rule at the same instant. -/
theorem not_cooldownKept_overlapping : ¬ CooldownKept 0 denialEngine overlappingEvaluations := by
  intro h
  have hapart := h.apart 7 9 [denialRule.alert deniedEntry 0] [denialRule.alert deniedEntry 0] (denialRule.alert deniedEntry 0)
    (denialRule.alert deniedEntry 0) denialRule ⟨0, rfl, by decide +kernel⟩ ⟨1, rfl, by decide +kernel⟩ (by decide)
    List.mem_cons_self List.mem_cons_self List.mem_cons_self rfl rfl
  exact absurd hapart (by decide)

end Audit
end Rbac
end Kirino
