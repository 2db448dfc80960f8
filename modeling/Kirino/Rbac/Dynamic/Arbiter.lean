import Mathlib.Data.Finset.Insert
import Mathlib.Data.List.Perm.Basic
import Kirino.Lib.Threads
import Kirino.Rbac.Dynamic.Anomaly
import Kirino.Rbac.Dynamic.Risk
/-!
# Arbiter — authorizations, feedback, lockdowns and decay in flight (`rbac/dynamic/arbiter.rs`, `trust.rs`)

Every call of the arbiter and every cycle of the decay worker takes one step for each lock it takes or store it asks.
The frozen set is read first: once a lockdown has completed, an authorization of the delegator is denied whatever the
others do, as long as nobody restores it (`lockdown_holds`).
-/
namespace Kirino
namespace Rbac
namespace Dynamic

open Lib (HashMap Pool PoolEvent Machine)
open Lib.Program (spawned spawned_append getElem?_spawned_append)

def defaultAnomalyScoreWhenAtCapacity : ℚ := 15 / 100

structure ArbiterState where
  trustStore : HashMap String TrustScore
  policy : DynamicPolicy
  domainScope : Option DomainScope
  detectors : HashMap String AnomalyDetector
  maxDetectors : Nat
  frozen : Finset String

/-- What a step reads from outside: the clock, whether the trust store fails, and the order it lists its ids in. -/
structure ArbiterInput where
  now : Int
  storeError : Bool
  order : List String
deriving DecidableEq

/-- The places of the calls, each with what the call has read. -/
inductive ArbiterCall where
  | authorizeFrozen (request : ActionRequest)
  | authorizeWeights (request : ActionRequest)
  | authorizeTrust (request : ActionRequest) (policy : DynamicPolicy)
  | authorizeScope (request : ActionRequest) (policy : DynamicPolicy) (trust : TrustScore)
  | authorizeDetectors (request : ActionRequest) (policy : DynamicPolicy) (trust : TrustScore) (scope : Option DomainScope)
  | authorizeLevel (request : ActionRequest) (risk : RiskScore)
  | feedbackGet (id : String) (outcome : ActionOutcome)
  | feedbackSet (id : String) (outcome : ActionOutcome) (stored : Option TrustScore)
  | lockdownFreeze (id : String)
  | lockdownSet (id : String)
  | restoreThaw (id : String) (target : AutonomyLevel)
  | restoreSet (id : String) (target : AutonomyLevel)
  | restoreDetector (id : String)
  | decayList (elapsed : Duration)
  | decayGet (elapsed : Duration) (id : String) (rest : List String) (decayed : Nat)
  | decaySet (elapsed : Duration) (id : String) (score : TrustScore) (rest : List String) (decayed : Nat)
  | returned

inductive ArbiterAnswer where
  | verdict (verdict : AuthorizationVerdict)
  | done
  | decayed (result : Except Unit Nat)
  | policySet (result : Except PolicyError Unit)
deriving DecidableEq

/-- What the host does beside the calls.  `writeTrust` goes through the handle to the trust store. -/
inductive ArbiterOp where
  | setPolicy (policy : DynamicPolicy)
  | setDomainScope (scope : DomainScope)
  | writeTrust (id : String) (record : Option TrustScore)

abbrev ArbiterPool := Pool ArbiterState ArbiterCall

abbrev ArbiterEvent := PoolEvent ArbiterCall ArbiterInput ArbiterOp

namespace ArbiterState

def getTrust (w : ArbiterState) (input : ArbiterInput) (id : String) : Except Unit (Option TrustScore) :=
  if input.storeError then .error () else .ok (w.trustStore.get? id)

/-- A write that fails changes nothing. -/
def setTrust (w : ArbiterState) (input : ArbiterInput) (id : String) (trust : TrustScore) : ArbiterState :=
  if input.storeError then w else { w with trustStore := w.trustStore.insert id trust }

def listIds (w : ArbiterState) (input : ArbiterInput) : List String :=
  if input.order.Perm w.trustStore.keys then input.order else w.trustStore.keys

/-- The request is observed by the delegator's detector, unless there are too many. -/
def observe (sqrt : ℚ → ℚ) (w : ArbiterState) (request : ActionRequest) : ℚ × ArbiterState :=
  let id := request.delegator.id
  let detector := w.detectors.get? id
  if w.maxDetectors ≤ w.detectors.len ∧ detector = none then (defaultAnomalyScoreWhenAtCapacity, w)
  else
    let (score, detector) := (detector.getD AnomalyDetector.default).observe sqrt request
    (score.value, { w with detectors := w.detectors.insert id detector })

end ArbiterState

def frozenVerdict (request : ActionRequest) (now : Int) : AuthorizationVerdict where
  allowed := false
  autonomyLevel := .l0Frozen
  riskScore := 1
  subScores := ⟨0, 1, 0, 0, 0⟩
  evidence := [.frozen request.delegator.id]
  mitigation := some (.block "lockdown")
  timestamp := now

def Strategy.isThrottle : Strategy → Bool
  | .throttle _ => true
  | _ => false

def scoredVerdict (policy : DynamicPolicy) (request : ActionRequest) (risk : RiskScore) (now : Int) :
    AuthorizationVerdict :=
  let level := policy.mapToLevel risk.value
  let strategy := policy.strategyFor level
  let allowed := decide (level = .l4FullAutonomy ∨ level = .l3Conditional)
  { allowed
    autonomyLevel := level
    riskScore := risk.value
    subScores := risk.subScores
    evidence := [.risk risk.value level request.delegator.delegatorType, .sub risk.subScores]
    mitigation := if allowed && !strategy.isThrottle then none else some strategy
    timestamp := now }

/-- The trust that is scored: none for a record that is missing, and none with full confidence when the store fails. -/
def scoredTrust (now : Int) : Except Unit (Option TrustScore) → TrustScore
  | .ok (some score) => score
  | .ok none => TrustScore.default now
  | .error () => { TrustScore.default now with value := 0, confidence := 1 }

/-- A cycle goes on with the next id, or ends. -/
def decayNext (elapsed : Duration) (decayed : Nat) : List String → ArbiterCall × Option ArbiterAnswer
  | [] => (.returned, some (.decayed (.ok decayed)))
  | id :: rest => (.decayGet elapsed id rest decayed, none)

namespace ArbiterCall

/-- One step of a call. -/
def next (sqrt : ℚ → ℚ) (input : ArbiterInput) (w : ArbiterState) :
    ArbiterCall → ArbiterState × ArbiterCall × Option ArbiterAnswer
  | authorizeFrozen request =>
    if request.delegator.id ∈ w.frozen then (w, .returned, some (.verdict (frozenVerdict request input.now)))
    else (w, .authorizeWeights request, none)
  | authorizeWeights request => (w, .authorizeTrust request w.policy, none)
  | authorizeTrust request policy =>
    (w, .authorizeScope request policy (scoredTrust input.now (w.getTrust input request.delegator.id)), none)
  | authorizeScope request policy trust => (w, .authorizeDetectors request policy trust w.domainScope, none)
  | authorizeDetectors request policy trust scope =>
    let (anomaly, w) := w.observe sqrt request
    (w, .authorizeLevel request (riskScore policy request trust scope anomaly), none)
  | authorizeLevel request risk => (w, .returned, some (.verdict (scoredVerdict w.policy request risk input.now)))
  | feedbackGet id outcome => (w, .feedbackSet id outcome ((w.getTrust input id).toOption.join), none)
  | feedbackSet id outcome stored =>
    let trust := (stored.getD (TrustScore.default input.now)).onOutcome outcome input.now
    (w.setTrust input id trust, .returned, some .done)
  | lockdownFreeze id => ({ w with frozen := insert id w.frozen }, .lockdownSet id, none)
  | lockdownSet id => (w.setTrust input id (TrustScore.lockdown input.now), .returned, some .done)
  | restoreThaw id target => ({ w with frozen := w.frozen.erase id }, .restoreSet id target, none)
  | restoreSet id target => (w.setTrust input id (TrustScore.restore target input.now), .restoreDetector id, none)
  | restoreDetector id => ({ w with detectors := w.detectors.remove id }, .returned, some .done)
  | decayList elapsed =>
    if input.storeError then (w, .returned, some (.decayed (.error ())))
    else (w, decayNext elapsed 0 (w.listIds input))
  | decayGet elapsed id rest decayed =>
    match w.getTrust input id with
    | .error () => (w, .returned, some (.decayed (.error ())))
    | .ok none => (w, decayNext elapsed decayed rest)
    | .ok (some score) => (w, .decaySet elapsed id score rest decayed, none)
  | decaySet elapsed id score rest decayed =>
    if input.storeError then (w, .returned, some (.decayed (.error ())))
    else (w.setTrust input id (score.degrade elapsed input.now), decayNext elapsed (decayed + 1) rest)
  | returned => (w, .returned, none)

end ArbiterCall

def ArbiterOp.perform (w : ArbiterState) : ArbiterOp → ArbiterState × Option ArbiterAnswer
  | setPolicy policy =>
    match policy.validate with
    | .error e => (w, some (.policySet (.error e)))
    | .ok () => ({ w with policy }, some (.policySet (.ok ())))
  | setDomainScope scope => ({ w with domainScope := some scope }, none)
  | writeTrust id (some record) => ({ w with trustStore := w.trustStore.insert id record }, none)
  | writeTrust id none => ({ w with trustStore := w.trustStore.remove id }, none)

def arbiterProgram (sqrt : ℚ → ℚ) :
    Lib.Program ArbiterState ArbiterCall ArbiterInput ArbiterOp (Option ArbiterAnswer) where
  next _ input w call := call.next sqrt input w
  env op w := op.perform w
  idle := none

def arbiterMachine (sqrt : ℚ → ℚ) : Machine ArbiterPool ArbiterEvent (Option ArbiterAnswer) := (arbiterProgram sqrt).machine

/-! ## One step and the frozen set -/

theorem ArbiterState.frozen_setTrust (w : ArbiterState) (input : ArbiterInput) (id : String) (trust : TrustScore) :
    (w.setTrust input id trust).frozen = w.frozen := by
  unfold setTrust
  split <;> rfl

theorem ArbiterState.frozen_observe (sqrt : ℚ → ℚ) (w : ArbiterState) (request : ActionRequest) :
    (w.observe sqrt request).2.frozen = w.frozen := by
  unfold observe
  dsimp only
  split <;> rfl

/-- What the step makes of the frozen set. -/
def ArbiterCall.frozenAfter (frozen : Finset String) : ArbiterCall → Finset String
  | .lockdownFreeze id => insert id frozen
  | .restoreThaw id _ => frozen.erase id
  | _ => frozen

/-- **Only a lockdown and a restore change the frozen set.** -/
theorem frozen_next (sqrt : ℚ → ℚ) (input : ArbiterInput) (w : ArbiterState) (call : ArbiterCall) :
    (call.next sqrt input w).1.frozen = call.frozenAfter w.frozen := by
  cases call with
  | authorizeFrozen request =>
    unfold ArbiterCall.next
    dsimp only
    split <;> rfl
  | authorizeDetectors request policy trust scope => exact w.frozen_observe sqrt request
  | feedbackSet id outcome stored => exact w.frozen_setTrust input id _
  | lockdownSet id => exact w.frozen_setTrust input id _
  | restoreSet id target => exact w.frozen_setTrust input id _
  | decayList elapsed =>
    unfold ArbiterCall.next
    dsimp only
    split <;> rfl
  | decayGet elapsed id rest decayed =>
    unfold ArbiterCall.next
    dsimp only
    split <;> rfl
  | decaySet elapsed id score rest decayed =>
    unfold ArbiterCall.next
    dsimp only
    split
    · rfl
    · exact w.frozen_setTrust input id _
  | _ => rfl

theorem frozen_perform (op : ArbiterOp) (w : ArbiterState) : (op.perform w).1.frozen = w.frozen := by
  cases op with
  | setPolicy policy =>
    unfold ArbiterOp.perform
    dsimp only
    split <;> rfl
  | setDomainScope scope => rfl
  | writeTrust id record => cases record <;> rfl

/-- A restore takes the delegator out of the frozen set at this event. -/
def Thaws (d : String) (p : ArbiterPool) : ArbiterEvent → Prop
  | .step i _ => ∃ target, p.threads[i]? = some (.restoreThaw d target)
  | _ => False

/-- **A frozen delegator is denied** before anything else is read. -/
theorem authorizeFrozen_denied {w : ArbiterState} {request : ActionRequest} (h : request.delegator.id ∈ w.frozen)
    {sqrt : ℚ → ℚ} {input : ArbiterInput} : (ArbiterCall.authorizeFrozen request).next sqrt input w =
      (w, .returned, some (.verdict (frozenVerdict request input.now))) := if_pos h

theorem next_ne_restoreThaw (sqrt : ℚ → ℚ) (input : ArbiterInput) (w : ArbiterState) (call : ArbiterCall) (d : String)
    (target : AutonomyLevel) : (call.next sqrt input w).2.1 ≠ .restoreThaw d target := by
  have hdecay : ∀ elapsed decayed ids, (decayNext elapsed decayed ids).1 ≠ .restoreThaw d target := by
    intro elapsed decayed ids
    cases ids <;> nofun
  cases call with
  | authorizeFrozen request =>
    unfold ArbiterCall.next
    dsimp only
    split <;> nofun
  | decayList elapsed =>
    unfold ArbiterCall.next
    dsimp only
    split
    · nofun
    · exact hdecay _ _ _
  | decayGet elapsed id rest decayed =>
    unfold ArbiterCall.next
    dsimp only
    split
    · nofun
    · exact hdecay _ _ _
    · nofun
  | decaySet elapsed id score rest decayed =>
    unfold ArbiterCall.next
    dsimp only
    split
    · nofun
    · exact hdecay _ _ _
  | _ => nofun

section Step
variable {sqrt : ℚ → ℚ} {d : String} {p : ArbiterPool}

theorem arbiter_step {i : Nat} {call : ArbiterCall} (hcall : p.threads[i]? = some call) (input : ArbiterInput) :
    (arbiterMachine sqrt).step p (.step i input) =
        ⟨(call.next sqrt input p.shared).1, p.threads.set i (call.next sqrt input p.shared).2.1⟩ ∧
      (arbiterMachine sqrt).out p (.step i input) = (call.next sqrt input p.shared).2.2 :=
  (arbiterProgram sqrt).machine_step hcall input

theorem arbiter_step_none {i : Nat} (hcall : p.threads[i]? = none) (input : ArbiterInput) :
    (arbiterMachine sqrt).step p (.step i input) = p ∧ (arbiterMachine sqrt).out p (.step i input) = none :=
  (arbiterProgram sqrt).machine_step_none hcall input

/-- **A frozen delegator stays frozen**, as long as no restore takes it out. -/
theorem frozen_step {e : ArbiterEvent} (hd : d ∈ p.shared.frozen) (hthaw : ¬ Thaws d p e) :
    d ∈ ((arbiterMachine sqrt).step p e).shared.frozen := by
  cases e with
  | spawn call => exact hd
  | env op => exact (frozen_perform op p.shared).symm ▸ hd
  | step i input =>
    cases hcall : p.threads[i]? with
    | none => rwa [(arbiter_step_none hcall input).1]
    | some call =>
      rw [(arbiter_step hcall input).1, frozen_next]
      cases call with
      | lockdownFreeze id => exact Finset.mem_insert_of_mem hd
      | restoreThaw id target =>
        refine Finset.mem_erase.2 ⟨?_, hd⟩
        rintro rfl
        exact hthaw ⟨target, hcall⟩
      | _ => exact hd

theorem thread_step {e : ArbiterEvent} {i : Nat} {call : ArbiterCall} (hcall : p.threads[i]? = some call)
    (hother : ∀ input, e ≠ .step i input) : ((arbiterMachine sqrt).step p e).threads[i]? = some call :=
  (arbiterProgram sqrt).getElem?_step_of_ne hcall hother

theorem thread_step_self {i : Nat} {call : ArbiterCall} (hcall : p.threads[i]? = some call) (input : ArbiterInput) :
    ((arbiterMachine sqrt).step p (.step i input)).threads[i]? = some (call.next sqrt input p.shared).2.1 :=
  (arbiterProgram sqrt).getElem?_step_self hcall input

/-- The lockdown has not begun, or the delegator is frozen. -/
def Locking (d : String) (i : Nat) (p : ArbiterPool) : Prop :=
  p.threads[i]? = some (.lockdownFreeze d) ∨
    (p.threads[i]? = some (.lockdownSet d) ∨ p.threads[i]? = some .returned) ∧ d ∈ p.shared.frozen

theorem locking_step {i : Nat} {e : ArbiterEvent} (h : Locking d i p) (hthaw : ¬ Thaws d p e) :
    Locking d i ((arbiterMachine sqrt).step p e) := by
  by_cases hown : ∃ input, e = .step i input
  · obtain ⟨input, rfl⟩ := hown
    rcases h with hcall | ⟨hcall | hcall, hd⟩
    · refine Or.inr ⟨Or.inl (thread_step_self hcall input), ?_⟩
      rw [(arbiter_step hcall input).1]
      exact Finset.mem_insert_self d _
    · exact Or.inr ⟨Or.inr (thread_step_self hcall input), frozen_step hd hthaw⟩
    · exact Or.inr ⟨Or.inr (thread_step_self hcall input), frozen_step hd hthaw⟩
  · have hother : ∀ input, e ≠ .step i input := fun input he => hown ⟨input, he⟩
    rcases h with hcall | ⟨hcall, hd⟩
    · exact Or.inl (thread_step hcall hother)
    · exact Or.inr ⟨hcall.imp (thread_step · hother) (thread_step · hother), frozen_step hd hthaw⟩

/-- The delegator is frozen, and the authorization has its first step to take or has returned. -/
def Refusing (d : String) (j : Nat) (request : ActionRequest) (p : ArbiterPool) : Prop :=
  (p.threads[j]? = some (.authorizeFrozen request) ∨ p.threads[j]? = some .returned) ∧ d ∈ p.shared.frozen

theorem refusing_step {j : Nat} {request : ActionRequest} {e : ArbiterEvent} (h : Refusing d j request p)
    (hrequest : request.delegator.id = d) (hthaw : ¬ Thaws d p e) :
    Refusing d j request ((arbiterMachine sqrt).step p e) := by
  refine ⟨?_, frozen_step h.2 hthaw⟩
  by_cases hown : ∃ input, e = .step j input
  · obtain ⟨input, rfl⟩ := hown
    right
    rcases h.1 with hcall | hcall
    · rw [thread_step_self hcall, authorizeFrozen_denied (hrequest ▸ h.2)]
    · exact thread_step_self hcall input
  · have hother : ∀ input, e ≠ .step j input := fun input he => hown ⟨input, he⟩
    exact h.1.imp (thread_step · hother) (thread_step · hother)

end Step

/-! ## Lockdowns -/

section Lockdown
variable (sqrt : ℚ → ℚ) (w : ArbiterState) (es : List ArbiterEvent)

/-- Event `q` is a step of a restore of the delegator. -/
def RestoreStep (d : String) (q : Nat) : Prop :=
  ∃ i input target, es[q]? = some (.step i input) ∧ (spawned es)[i]? = some (.restoreThaw d target)

theorem length_threads :
    ((arbiterMachine sqrt).run ⟨w, []⟩ es).threads.length = (spawned es).length :=
  (arbiterProgram sqrt).length_threads_run w es

theorem thread_spawned {m : Nat} {call : ArbiterCall} (hspawn : es[m]? = some (.spawn call)) :
    ((arbiterMachine sqrt).run ⟨w, []⟩ (es.take (m + 1))).threads[(spawned (es.take m)).length]? = some call := by
  rw [(arbiterMachine sqrt).run_take_succ _ hspawn, ← length_threads sqrt w (es.take m)]
  exact List.getElem?_concat_length

theorem restore_spawned : ∀ (i : Nat) (d : String) (target : AutonomyLevel),
    ((arbiterMachine sqrt).run ⟨w, []⟩ es).threads[i]? = some (.restoreThaw d target) →
      (spawned es)[i]? = some (.restoreThaw d target) := by
  induction es using List.reverseRecOn with
  | nil => exact fun i d target h => by cases h
  | append_singleton es e ih =>
    intro i d target h
    rw [(arbiterMachine sqrt).run_append] at h
    cases e with
    | spawn call =>
      rcases Lib.getElem?_concat h with hold | ⟨rfl, rfl⟩
      · exact getElem?_spawned_append (ih i d target hold) _
      · rw [spawned_append, length_threads]
        exact List.getElem?_concat_length
    | env op => exact getElem?_spawned_append (ih i d target h) _
    | step j input =>
      cases hcall : ((arbiterMachine sqrt).run ⟨w, []⟩ es).threads[j]? with
      | none =>
        have hstep := ((arbiterProgram sqrt).machine_step_none hcall input).1
        exact getElem?_spawned_append (ih i d target ((congrArg (fun p => p.threads[i]?) hstep).symm.trans h)) _
      | some call =>
        have hstep := ((arbiterProgram sqrt).machine_step hcall input).1
        rcases Lib.getElem?_set_cases ((congrArg (fun p => p.threads[i]?) hstep).symm.trans h) with ⟨rfl, hnext⟩ | ⟨-, hold⟩
        · exact absurd hnext.symm (next_ne_restoreThaw sqrt input _ call d target)
        · exact getElem?_spawned_append (ih i d target hold) _

variable {es} in
theorem not_thaws {d : String} {q : Nat} {e : ArbiterEvent} (he : es[q]? = some e) (hrestore : ¬ RestoreStep es d q) :
    ¬ Thaws d ((arbiterMachine sqrt).run ⟨w, []⟩ (es.take q)) e := by
  cases e with
  | spawn call => exact id
  | env op => exact id
  | step i input =>
    rintro ⟨target, htarget⟩
    exact hrestore ⟨i, input, target, he, Lib.Program.spawned_of_take (restore_spawned sqrt w _ i d target htarget)⟩

/-- Event `k` is the last step of the call that began at event `s`: it answers. -/
def CompletesAt (s k : Nat) (answer : ArbiterAnswer) : Prop :=
  ∃ input, es[k]? = some (.step (spawned (es.take s)).length input) ∧
    (arbiterMachine sqrt).out ((arbiterMachine sqrt).run ⟨w, []⟩ (es.take k)) (.step (spawned (es.take s)).length input) =
      some answer

theorem CompletesAt.lt {sqrt : ℚ → ℚ} {w : ArbiterState} {es : List ArbiterEvent} {s k : Nat} {answer : ArbiterAnswer}
    (h : CompletesAt sqrt w es s k answer) : s < k := by
  obtain ⟨input, -, hout⟩ := h
  refine Nat.lt_of_not_le (fun hks => ?_)
  have hnone : ((arbiterMachine sqrt).run ⟨w, []⟩ (es.take k)).threads[(spawned (es.take s)).length]? = none := by
    refine List.getElem?_eq_none ?_
    rw [length_threads]
    have hsplit := congrArg (fun l => (spawned l).length) (List.take_append_drop k (es.take s))
    simp only [spawned_append, List.length_append, List.take_take, Nat.min_eq_left hks] at hsplit
    omega
  rw [(arbiter_step_none hnone input).2] at hout
  cases hout

/-- **A lockdown holds until a restore**: an authorization of the delegator that begins after a lockdown has completed
is denied at the lowest level with full risk, as long as no restore of the delegator takes a step from the beginning of
the lockdown to the end of the authorization. -/
theorem lockdown_holds {d : String} {request : ActionRequest} (hrequest : request.delegator.id = d) {s k m n : Nat}
    (hlockdown : es[s]? = some (.spawn (.lockdownFreeze d))) (hcompleted : CompletesAt sqrt w es s k .done)
    (hauthorize : es[m]? = some (.spawn (.authorizeFrozen request))) (hafter : k < m) {answer : ArbiterAnswer}
    (hanswer : CompletesAt sqrt w es m n answer) (hrestore : ∀ q, s ≤ q → q ≤ n → ¬ RestoreStep es d q) :
    ∃ verdict, answer = .verdict verdict ∧ verdict.allowed = false ∧ verdict.autonomyLevel = .l0Frozen ∧
      verdict.riskScore = 1 := by
  have hsk := hcompleted.lt
  have hmn := hanswer.lt
  have hthaw : ∀ q e, s ≤ q → q < n → es[q]? = some e → ¬ Thaws d ((arbiterMachine sqrt).run ⟨w, []⟩ (es.take q)) e :=
    fun q e hsq hqn he => not_thaws sqrt w he (hrestore q hsq (Nat.le_of_lt hqn))
  -- the lockdown answers, so it has taken its first step
  have hfrozen : d ∈ ((arbiterMachine sqrt).run ⟨w, []⟩ (es.take k)).shared.frozen := by
    have hlocking : Locking d (spawned (es.take s)).length ((arbiterMachine sqrt).run ⟨w, []⟩ (es.take k)) := by
      refine (arbiterMachine sqrt).run_invariant_between _ _ es hsk (Or.inl (thread_spawned sqrt w es hlockdown)) ?_
      exact fun q e hsq hqk he h => locking_step h (hthaw q e (by omega) (by omega) he)
    obtain ⟨input, -, hout⟩ := hcompleted
    rcases hlocking with hcall | ⟨-, hd⟩
    · rw [(arbiter_step hcall input).2] at hout
      cases hout
    · exact hd
  have hrefusing : Refusing d (spawned (es.take m)).length request
      ((arbiterMachine sqrt).run ⟨w, []⟩ (es.take n)) := by
    refine (arbiterMachine sqrt).run_invariant_between _ _ es hmn ⟨Or.inl (thread_spawned sqrt w es hauthorize), ?_⟩ ?_
    · refine (arbiterMachine sqrt).run_invariant_between (fun p => d ∈ p.shared.frozen) _ es (by omega) hfrozen ?_
      exact fun q e hkq hqm he h => frozen_step h (hthaw q e (by omega) (by omega) he)
    · exact fun q e hmq hqn he h => refusing_step h hrequest (hthaw q e (by omega) hqn he)
  obtain ⟨input, -, hout⟩ := hanswer
  obtain ⟨hcall | hcall, hd⟩ := hrefusing
  · rw [(arbiter_step hcall input).2, authorizeFrozen_denied (hrequest ▸ hd)] at hout
    obtain rfl := Option.some.inj hout
    exact ⟨_, rfl, rfl, rfl, rfl⟩
  · rw [(arbiter_step hcall input).2] at hout
    cases hout

end Lockdown

/-! ## A lockdown among other calls -/

def pumpRequest : ActionRequest := ⟨⟨"agent-7", .agent⟩, "open-valve", .stateWrite, none, 0⟩

/-- Full trust and a policy that approves every risk. -/
def approvingState : ArbiterState where
  trustStore := HashMap.empty.insert "agent-7" ⟨1, 1, 500, 0, 1 / 100⟩
  policy := { defaultDynamicPolicy with autonomyThresholds := fun level => if level = .l4FullAutonomy then some (0, 1) else none }
  domainScope := none
  detectors := HashMap.empty
  maxDetectors := 10000
  frozen := ∅

/-- A feedback that has read the record before the lockdown writes it back after. -/
def lockdownRun : List ArbiterEvent :=
  [.spawn (.feedbackGet "agent-7" .success), .step 0 ⟨1, false, []⟩, .spawn (.lockdownFreeze "agent-7"),
    .step 1 ⟨2, false, []⟩, .step 1 ⟨3, false, []⟩, .step 0 ⟨4, false, []⟩, .spawn (.authorizeFrozen pumpRequest),
    .step 2 ⟨5, false, []⟩]

theorem lockdown_holds_late_feedback : (arbiterMachine id).outs ⟨approvingState, []⟩ lockdownRun =
      [none, none, none, none, some .done, some .done, none, some (.verdict (frozenVerdict pumpRequest 5))] ∧
    ∃ verdict, ArbiterAnswer.verdict (frozenVerdict pumpRequest 5) = .verdict verdict ∧ verdict.allowed = false ∧
      verdict.autonomyLevel = .l0Frozen ∧ verdict.riskScore = 1 := by
  refine ⟨by decide +kernel, lockdown_holds id approvingState lockdownRun rfl (s := 2) (k := 4) (m := 6) (n := 7) rfl
    ⟨_, rfl, by decide +kernel⟩ rfl (by decide) ⟨_, rfl, by decide +kernel⟩ ?_⟩
  rintro q - - ⟨i, input, target, -, hcall⟩
  have hspawned : spawned lockdownRun =
      [.feedbackGet "agent-7" .success, .lockdownFreeze "agent-7", .authorizeFrozen pumpRequest] := rfl
  rw [hspawned] at hcall
  match i, hcall with
  | 0, hcall => cases hcall
  | 1, hcall => cases hcall
  | 2, hcall => cases hcall
  | _ + 3, hcall => cases hcall

end Dynamic
end Rbac
end Kirino
