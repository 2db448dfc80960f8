import Mathlib.Data.Set.Card
import Kirino.Lib.Serial
import Kirino.Lib.WriteBack
import Kirino.Rbac.Dynamic.Arbiter
/-!
# TrustRuns — concurrent updates of one trust record (`rbac/dynamic/arbiter.rs`, `rbac/dynamic/trust.rs`)

A feedback and a decay cycle write back a record computed from an earlier read.  Where no other write of the record falls
between the two (`ReadsStayCurrent`), the record after a run is the one of a sequential order of the operations.
Elsewhere an update is lost, and the zero record of a lockdown may be replaced by one computed before it.
-/
namespace Kirino
namespace Rbac
namespace Dynamic

open Lib (HashMap Machine PoolEvent PoolInv Effects)
open Lib.Program (spawned spawned_append getElem?_spawned_append WriteBack)

/-- What an operation makes of the stored record. -/
def TrustOp.execute (now : Int) (stored : Option TrustScore) : TrustOp → Option TrustScore
  | .feedback outcome => some ((stored.getD (TrustScore.default now)).onOutcome outcome now)
  | .decay elapsed => stored.map (fun trust => trust.degrade elapsed now)
  | .lockdown => some (TrustScore.lockdown now)
  | .restore target => some (TrustScore.restore target now)

namespace ArbiterCall

/-- The places that the calls begin at. -/
def Begins : ArbiterCall → Prop
  | authorizeFrozen _ => True
  | feedbackGet _ _ => True
  | lockdownFreeze _ => True
  | restoreThaw _ _ => True
  | decayList _ => True
  | _ => False

/-- The step reads the record of the delegator to write it back. -/
def Reads (d : String) : ArbiterCall → Prop
  | feedbackGet id _ => id = d
  | decayGet _ id _ _ => id = d
  | _ => False

/-- The step writes the record of the delegator. -/
def Writes (d : String) : ArbiterCall → Prop
  | feedbackSet id _ _ => id = d
  | lockdownSet id => id = d
  | restoreSet id _ => id = d
  | decaySet _ id _ _ _ => id = d
  | _ => False

/-- The call writes back what it makes of the record that it has read. -/
def WritesBack (d : String) : ArbiterCall → Prop
  | feedbackSet id _ _ => id = d
  | decaySet _ id _ _ _ => id = d
  | _ => False

/-- The record that the call has read is the one given. -/
def MadeFrom (d : String) (stored : Option TrustScore) : ArbiterCall → Prop
  | feedbackSet id _ read => id = d → read = stored
  | decaySet _ id score _ _ => id = d → stored = some score
  | _ => True

/-- The step writes the record of the delegator anew. -/
def Resets (d : String) : ArbiterCall → Prop
  | lockdownSet id => id = d
  | restoreSet id _ => id = d
  | _ => False

/-- The operation on the record of the delegator that takes effect at the step.  A cycle that does not find the record
has done its part with it. -/
def committedOp (d : String) (w : ArbiterState) : ArbiterCall → Option TrustOp
  | feedbackSet id outcome _ => if id = d then some (.feedback outcome) else none
  | lockdownSet id => if id = d then some .lockdown else none
  | restoreSet id target => if id = d then some (.restore target) else none
  | decayList elapsed => if w.trustStore.get? d = none then some (.decay elapsed) else none
  | decayGet elapsed id _ _ => if id = d ∧ w.trustStore.get? d = none then some (.decay elapsed) else none
  | decaySet elapsed id _ _ _ => if id = d then some (.decay elapsed) else none
  | _ => none

/-- The call has nothing more to do with the record. -/
def Past (d : String) : ArbiterCall → Prop
  | decayGet _ id rest _ => d ∉ id :: rest
  | decaySet _ id _ rest _ => d ∉ id :: rest
  | restoreDetector _ => True
  | returned => True
  | _ => False

/-- A cycle comes to each id once. -/
def ListsOnce : ArbiterCall → Prop
  | decayGet _ id rest _ => (id :: rest).Nodup
  | decaySet _ id _ rest _ => (id :: rest).Nodup
  | _ => True

/-- The feedback that the call is. -/
def feedbackOf? : ArbiterCall → Option (String × ActionOutcome)
  | feedbackGet id outcome => some (id, outcome)
  | feedbackSet id outcome _ => some (id, outcome)
  | _ => none

end ArbiterCall

def recordOf (d : String) (p : ArbiterPool) : Option TrustScore := p.shared.trustStore.get? d

/-- Feedbacks and decay cycles write back what they made of the record that they have read. -/
def recordWriteBack (d : String) : WriteBack ArbiterState ArbiterCall (Option TrustScore) where
  view w := w.trustStore.get? d
  Reads := ArbiterCall.Reads d
  Writes := ArbiterCall.Writes d
  Carries := ArbiterCall.WritesBack d
  Made call stored := call.MadeFrom d stored

/-- The operations on the record of the delegator, each at the instant that its call reads. -/
def recordEffects (d : String) : Effects ArbiterPool ArbiterEvent Nat (TrustOp × Int) (Option TrustScore) where
  view := recordOf d
  execute op stored := op.1.execute op.2 stored
  Commits p e i op := ∃ input call, e = .step i input ∧ p.threads[i]? = some call ∧
    call.committedOp d p.shared = some op.1 ∧ input.now = op.2

/-- The call has done its operation on the record. -/
def PastRecord (d : String) (p : ArbiterPool) (i : Nat) : Prop := ∃ call, p.threads[i]? = some call ∧ call.Past d

section Definitions
variable (sqrt : ℚ → ℚ) (w : ArbiterState) (d : String) (es : List ArbiterEvent)

/-- Calls of the arbiter and cycles of the worker over a store that does not fail, and nobody else writes the record. -/
def WithoutFaults : ArbiterEvent → Prop
  | .spawn call => call.Begins
  | .step _ input => input.storeError = false
  | .env (.writeTrust id _) => id ≠ d
  | .env _ => True

/-- **No write of the record falls between a call's read of it and its write.** -/
def ReadsStayCurrent : Prop := (recordWriteBack d).StayCurrent (arbiterProgram sqrt) ⟨w, []⟩ es

/-- A feedback on the delegator has completed. -/
def FeedbackCompleted (i : Nat) : Prop :=
  ∃ outcome k input, (spawned es)[i]? = some (.feedbackGet d outcome) ∧ es[k]? = some (.step i input) ∧
    (arbiterMachine sqrt).out ((arbiterMachine sqrt).run ⟨w, []⟩ (es.take k)) (.step i input) = some .done

/-- The count of a record, none being no evidence. -/
def evidenceOf (stored : Option TrustScore) : Nat := (stored.map TrustScore.evidenceCount).getD 0

/-- A `u64` count after so many more. -/
def countAfter (evidenceCount more : Nat) : Nat := if more = 0 then evidenceCount else (evidenceCount + more) % 2 ^ 64

/-- **No trust feedback is lost.** -/
structure NoFeedbackLost : Prop where
  /-- The record is that of a sequential order of the operations done. -/
  serial : ∃ order, (recordEffects d).SerialOrder (arbiterMachine sqrt) ⟨w, []⟩ es order
  /-- Without a lockdown the count of the evidence grows by the feedbacks completed. -/
  counted : (∀ k i input call, (arbiterProgram sqrt).StepsAt ⟨w, []⟩ es k i input call → ¬ call.Resets d) →
    evidenceOf (recordOf d ((arbiterMachine sqrt).run ⟨w, []⟩ es)) =
      countAfter (evidenceOf (w.trustStore.get? d)) {i | FeedbackCompleted sqrt w d es i}.ncard
  /-- No record computed from a read before a lockdown is written after it. -/
  kept : ∀ k j input, (arbiterProgram sqrt).StepsAt ⟨w, []⟩ es k j input (.lockdownSet d) → ∀ i r n,
    (recordWriteBack d).ReadsAt (arbiterProgram sqrt) ⟨w, []⟩ es r i →
    (recordWriteBack d).WritesAt (arbiterProgram sqrt) ⟨w, []⟩ es n i → r < k → n ≤ k

end Definitions

/-! ## One step -/

section Next
variable {sqrt : ℚ → ℚ} {d : String} {w : ArbiterState} {input : ArbiterInput} {call : ArbiterCall}

theorem trustStore_observe (sqrt : ℚ → ℚ) (w : ArbiterState) (request : ActionRequest) :
    (w.observe sqrt request).2.trustStore = w.trustStore := by
  unfold ArbiterState.observe
  dsimp only
  split <;> rfl

theorem get?_setTrust_of_ne {id : String} (h : id ≠ d) (trust : TrustScore) :
    (w.setTrust input id trust).trustStore.get? d = w.trustStore.get? d := by
  unfold ArbiterState.setTrust
  split
  · rfl
  · exact w.trustStore.get?_insert_of_ne trust (Ne.symm h)

theorem get?_setTrust_self (hstore : input.storeError = false) (trust : TrustScore) :
    (w.setTrust input d trust).trustStore.get? d = some trust := by
  unfold ArbiterState.setTrust
  simp [hstore]

/-- **A step that does not write the record leaves it alone.** -/
theorem record_next_of_not_writes (hnot : ¬ call.Writes d) :
    (call.next sqrt input w).1.trustStore.get? d = w.trustStore.get? d := by
  cases call with
  | authorizeFrozen request =>
    unfold ArbiterCall.next
    dsimp only
    split <;> rfl
  | authorizeDetectors request policy trust scope =>
    exact congrArg (fun m => HashMap.get? m d) (trustStore_observe sqrt w request)
  | feedbackSet id outcome stored => exact get?_setTrust_of_ne hnot _
  | lockdownSet id => exact get?_setTrust_of_ne hnot _
  | restoreSet id target => exact get?_setTrust_of_ne hnot _
  | decayList elapsed =>
    unfold ArbiterCall.next
    dsimp only
    split <;> rfl
  | decayGet elapsed id rest decayed =>
    unfold ArbiterCall.next
    dsimp only
    split <;> rfl
  | decaySet elapsed id score rest decayed =>
    unfold ArbiterCall.next
    dsimp only
    split
    · rfl
    · exact get?_setTrust_of_ne hnot _
  | _ => rfl

theorem not_writes_of_committedOp (h : call.committedOp d w = none) : ¬ call.Writes d := by
  cases call with
  | feedbackSet id outcome stored => exact fun hid => absurd h (by simp [ArbiterCall.committedOp, show id = d from hid])
  | lockdownSet id => exact fun hid => absurd h (by simp [ArbiterCall.committedOp, show id = d from hid])
  | restoreSet id target => exact fun hid => absurd h (by simp [ArbiterCall.committedOp, show id = d from hid])
  | decaySet elapsed id score rest decayed =>
    exact fun hid => absurd h (by simp [ArbiterCall.committedOp, show id = d from hid])
  | _ => exact id

/-- The steps at which an operation on the record takes effect. -/
inductive CommittedBy (d : String) (w : ArbiterState) : ArbiterCall → TrustOp → Prop where
  | feedback (outcome stored) : CommittedBy d w (.feedbackSet d outcome stored) (.feedback outcome)
  | lockdown : CommittedBy d w (.lockdownSet d) .lockdown
  | restore (target) : CommittedBy d w (.restoreSet d target) (.restore target)
  | unlisted (elapsed) : w.trustStore.get? d = none → CommittedBy d w (.decayList elapsed) (.decay elapsed)
  | missing (elapsed rest decayed) : w.trustStore.get? d = none →
      CommittedBy d w (.decayGet elapsed d rest decayed) (.decay elapsed)
  | decayed (elapsed score rest decayed) : CommittedBy d w (.decaySet elapsed d score rest decayed) (.decay elapsed)

/-- **What takes effect at a step**, in six cases. -/
theorem committedBy_of {op : TrustOp} (h : call.committedOp d w = some op) : CommittedBy d w call op := by
  cases call with
  | feedbackSet id outcome stored =>
    simp only [ArbiterCall.committedOp, Option.ite_none_right_eq_some, Option.some.injEq] at h
    obtain ⟨rfl, rfl⟩ := h
    exact .feedback outcome stored
  | lockdownSet id =>
    simp only [ArbiterCall.committedOp, Option.ite_none_right_eq_some, Option.some.injEq] at h
    obtain ⟨rfl, rfl⟩ := h
    exact .lockdown
  | restoreSet id target =>
    simp only [ArbiterCall.committedOp, Option.ite_none_right_eq_some, Option.some.injEq] at h
    obtain ⟨rfl, rfl⟩ := h
    exact .restore target
  | decayList elapsed =>
    simp only [ArbiterCall.committedOp, Option.ite_none_right_eq_some, Option.some.injEq] at h
    obtain ⟨hnone, rfl⟩ := h
    exact .unlisted elapsed hnone
  | decayGet elapsed id rest decayed =>
    simp only [ArbiterCall.committedOp, Option.ite_none_right_eq_some, Option.some.injEq] at h
    obtain ⟨⟨rfl, hnone⟩, rfl⟩ := h
    exact .missing elapsed rest decayed hnone
  | decaySet elapsed id score rest decayed =>
    simp only [ArbiterCall.committedOp, Option.ite_none_right_eq_some, Option.some.injEq] at h
    obtain ⟨rfl, rfl⟩ := h
    exact .decayed elapsed score rest decayed
  | _ => cases h

theorem listIds_nodup (w : ArbiterState) (input : ArbiterInput) : (w.listIds input).Nodup := by
  unfold ArbiterState.listIds
  split
  · rename_i hperm
    exact hperm.nodup_iff.2 w.trustStore.nodup
  · exact w.trustStore.nodup

theorem mem_listIds_iff : d ∈ w.listIds input ↔ w.trustStore.get? d ≠ none := by
  have hkeys : d ∈ w.trustStore.keys ↔ w.trustStore.get? d ≠ none := by
    rw [HashMap.mem_keys_iff, Option.ne_none_iff_exists']
  unfold ArbiterState.listIds
  split
  · rename_i hperm
    rw [hperm.mem_iff, hkeys]
  · exact hkeys

theorem past_decayNext {elapsed : Duration} {decayed : Nat} {ids : List String} (h : d ∉ ids) :
    (decayNext elapsed decayed ids).1.Past d := by
  cases ids with
  | nil => trivial
  | cons id rest => exact h

/-- **What is done with the record stays done.** -/
theorem past_next (h : call.Past d) : (call.next sqrt input w).2.1.Past d := by
  cases call with
  | decayGet elapsed id rest decayed =>
    have hrest : d ∉ rest := fun hd => h (List.mem_cons_of_mem id hd)
    unfold ArbiterCall.next
    dsimp only
    split
    · trivial
    · exact past_decayNext hrest
    · exact h
  | decaySet elapsed id score rest decayed =>
    have hrest : d ∉ rest := fun hd => h (List.mem_cons_of_mem id hd)
    unfold ArbiterCall.next
    dsimp only
    split
    · trivial
    · exact past_decayNext hrest
  | restoreDetector id => trivial
  | returned => trivial
  | _ => exact h.elim

theorem past_of_committedOp (sqrt : ℚ → ℚ) {op : TrustOp} (hop : call.committedOp d w = some op) (honce : call.ListsOnce)
    (hstore : input.storeError = false) : ¬ call.Past d ∧ (call.next sqrt input w).2.1.Past d := by
  cases committedBy_of hop with
  | feedback outcome stored => exact ⟨not_false, trivial⟩
  | lockdown => exact ⟨not_false, trivial⟩
  | restore target => exact ⟨not_false, trivial⟩
  | unlisted elapsed hnone =>
    refine ⟨not_false, ?_⟩
    simp only [ArbiterCall.next, hstore, Bool.false_eq_true, if_false]
    exact past_decayNext (fun hd => mem_listIds_iff.1 hd hnone)
  | missing elapsed rest decayed hnone =>
    refine ⟨fun h => h List.mem_cons_self, ?_⟩
    have hget : w.getTrust input d = .ok none := by simp [ArbiterState.getTrust, hstore, hnone]
    simp only [ArbiterCall.next, hget]
    exact past_decayNext (List.nodup_cons.1 honce).1
  | decayed elapsed score rest decayed =>
    refine ⟨fun h => h List.mem_cons_self, ?_⟩
    simp only [ArbiterCall.next, hstore, Bool.false_eq_true, if_false]
    exact past_decayNext (List.nodup_cons.1 honce).1

theorem listsOnce_decayNext {elapsed : Duration} {decayed : Nat} {ids : List String} (h : ids.Nodup) :
    (decayNext elapsed decayed ids).1.ListsOnce := by
  cases ids with
  | nil => trivial
  | cons id rest => exact h

theorem listsOnce_next (h : call.ListsOnce) : (call.next sqrt input w).2.1.ListsOnce := by
  cases call with
  | authorizeFrozen request =>
    unfold ArbiterCall.next
    dsimp only
    split <;> trivial
  | decayList elapsed =>
    unfold ArbiterCall.next
    dsimp only
    split
    · trivial
    · exact listsOnce_decayNext (listIds_nodup w input)
  | decayGet elapsed id rest decayed =>
    unfold ArbiterCall.next
    dsimp only
    split
    · trivial
    · exact listsOnce_decayNext (List.nodup_cons.1 h).2
    · exact h
  | decaySet elapsed id score rest decayed =>
    unfold ArbiterCall.next
    dsimp only
    split
    · trivial
    · exact listsOnce_decayNext (List.nodup_cons.1 h).2
  | _ => trivial

theorem feedbackOf?_decayNext {elapsed : Duration} {decayed : Nat} {ids : List String} :
    (decayNext elapsed decayed ids).1.feedbackOf? = none := by
  cases ids <;> rfl

theorem feedbackOf?_next (sqrt : ℚ → ℚ) (input : ArbiterInput) (w : ArbiterState) (call : ArbiterCall) :
    (call.next sqrt input w).2.1.feedbackOf? = call.feedbackOf? ∨ (call.next sqrt input w).2.1 = .returned := by
  cases call with
  | authorizeFrozen request =>
    left
    unfold ArbiterCall.next
    dsimp only
    split <;> rfl
  | feedbackSet id outcome stored => exact Or.inr rfl
  | decayList elapsed =>
    left
    unfold ArbiterCall.next
    dsimp only
    split
    · rfl
    · exact feedbackOf?_decayNext
  | decayGet elapsed id rest decayed =>
    left
    unfold ArbiterCall.next
    dsimp only
    split
    · rfl
    · exact feedbackOf?_decayNext
    · rfl
  | decaySet elapsed id score rest decayed =>
    left
    unfold ArbiterCall.next
    dsimp only
    split
    · rfl
    · exact feedbackOf?_decayNext
  | _ => exact Or.inl rfl

/-- **A step over the record that it was made from does the operation.** -/
theorem record_next_of_committedOp {op : TrustOp} (hop : call.committedOp d w = some op)
    (hmade : call.MadeFrom d (w.trustStore.get? d)) (hstore : input.storeError = false) :
    (call.next sqrt input w).1.trustStore.get? d = op.execute input.now (w.trustStore.get? d) := by
  cases committedBy_of hop with
  | feedback outcome stored =>
    obtain rfl := hmade rfl
    exact get?_setTrust_self hstore _
  | lockdown => exact get?_setTrust_self hstore _
  | restore target => exact get?_setTrust_self hstore _
  | unlisted elapsed hnone =>
    have hsame : ((ArbiterCall.decayList elapsed).next sqrt input w).1.trustStore.get? d = w.trustStore.get? d :=
      record_next_of_not_writes not_false
    rw [hsame, hnone]
    rfl
  | missing elapsed rest decayed hnone =>
    have hsame : ((ArbiterCall.decayGet elapsed d rest decayed).next sqrt input w).1.trustStore.get? d =
        w.trustStore.get? d := record_next_of_not_writes not_false
    rw [hsame, hnone]
    rfl
  | decayed elapsed score rest decayed =>
    rw [hmade rfl]
    simp only [ArbiterCall.next, hstore, Bool.false_eq_true, if_false]
    exact get?_setTrust_self hstore _

theorem madeFrom_of_not_writesBack (h : ¬ call.WritesBack d) (stored : Option TrustScore) : call.MadeFrom d stored := by
  cases call with
  | feedbackSet id outcome read => exact fun hid => absurd hid h
  | decaySet elapsed id score rest decayed => exact fun hid => absurd hid h
  | _ => trivial

theorem not_writesBack_decayNext {elapsed : Duration} {decayed : Nat} {ids : List String} :
    ¬ (decayNext elapsed decayed ids).1.WritesBack d := by
  cases ids <;> exact not_false

theorem reads_of_writesBack_next (hstore : input.storeError = false) (h : (call.next sqrt input w).2.1.WritesBack d) :
    call.Reads d ∧ (call.next sqrt input w).2.1.MadeFrom d (w.trustStore.get? d) := by
  cases call with
  | authorizeFrozen request =>
    revert h
    unfold ArbiterCall.next
    dsimp only
    split <;> exact False.elim
  | feedbackGet id outcome =>
    obtain rfl : id = d := h
    refine ⟨rfl, fun _ => ?_⟩
    simp only [ArbiterState.getTrust, hstore, Bool.false_eq_true, if_false]
    rfl
  | decayList elapsed =>
    revert h
    unfold ArbiterCall.next
    dsimp only
    split
    · exact False.elim
    · exact fun h => absurd h not_writesBack_decayNext
  | decayGet elapsed id rest decayed =>
    have hget : w.getTrust input id = .ok (w.trustStore.get? id) := by simp [ArbiterState.getTrust, hstore]
    cases hstored : w.trustStore.get? id with
    | none =>
      rw [hstored] at hget
      simp only [ArbiterCall.next, hget] at h
      exact absurd h not_writesBack_decayNext
    | some score =>
      rw [hstored] at hget
      simp only [ArbiterCall.next, hget] at h ⊢
      obtain rfl : id = d := h
      exact ⟨rfl, fun _ => hstored⟩
  | decaySet elapsed id score rest decayed =>
    simp only [ArbiterCall.next, hstore, Bool.false_eq_true, if_false] at h
    exact absurd h not_writesBack_decayNext
  | _ => exact h.elim

end Next

/-! ## Runs -/

section Runs
variable {sqrt : ℚ → ℚ} {d : String} {w : ArbiterState} {es : List ArbiterEvent}

/-- What is known of a call of the run: where it began, and that a cycle comes to each id once. -/
structure CallLife (es : List ArbiterEvent) (i : Nat) (call : ArbiterCall) : Prop where
  origin : ∃ start, (spawned es)[i]? = some start ∧ start.Begins ∧
    (call.feedbackOf? = start.feedbackOf? ∨ call = .returned)
  once : call.ListsOnce

theorem CallLife.append {i : Nat} {call : ArbiterCall} (h : CallLife es i call) (e : ArbiterEvent) :
    CallLife (es ++ [e]) i call where
  origin := by
    obtain ⟨start, hstart, hrest⟩ := h.origin
    exact ⟨start, getElem?_spawned_append hstart [e], hrest⟩
  once := h.once

theorem callLife_begins {i : Nat} {call : ArbiterCall} (hspawned : (spawned es)[i]? = some call) (hbegins : call.Begins) :
    CallLife es i call := by
  refine ⟨⟨call, hspawned, hbegins, Or.inl rfl⟩, ?_⟩
  cases call <;> trivial

theorem callLife_next {i : Nat} {call : ArbiterCall} {input : ArbiterInput} (h : CallLife es i call)
    (sqrt : ℚ → ℚ) (w : ArbiterState) : CallLife (es ++ [.step i input]) i (call.next sqrt input w).2.1 where
  origin := by
    obtain ⟨start, hstart, hbegins, horigin⟩ := (h.append (.step i input)).origin
    refine ⟨start, hstart, hbegins, ?_⟩
    rcases feedbackOf?_next sqrt input w call with hnext | hnext
    · rcases horigin with horigin | rfl
      · exact Or.inl (hnext.trans horigin)
      · exact Or.inr rfl
    · exact Or.inr hnext
  once := listsOnce_next h.once

/-- **The calls of a run** without faults. -/
theorem callLife_run (hes : ∀ e ∈ es, WithoutFaults d e) :
    PoolInv (fun _ => True) (fun i _ call => CallLife es i call) ((arbiterMachine sqrt).run ⟨w, []⟩ es) := by
  refine (arbiterMachine sqrt).run_history (fun _ e => WithoutFaults d e)
    (fun es p => PoolInv (fun _ => True) (fun i _ call => CallLife es i call) p) ⟨w, []⟩
    (PoolInv.empty _ trivial) ?_ es ((arbiterMachine sqrt).along_of_forall _ _ _ (fun _ => hes))
  intro es e h he
  refine PoolInv.step h e ?_ ?_ ?_ ?_
  · rintro call rfl
    refine ⟨trivial, callLife_begins ?_ he, fun j call' h' => h'.append _⟩
    rw [spawned_append, length_threads]
    exact List.getElem?_concat_length
  · rintro i input call rfl _ hlife
    exact ⟨trivial, callLife_next hlife sqrt _, fun j call' _ _ h' => h'.append _⟩
  · rintro i input rfl -
    exact ⟨trivial, fun j call' h' => h'.append _⟩
  · rintro op rfl
    exact ⟨trivial, fun j call' _ h' => h'.append _⟩

theorem callLife_at (hes : ∀ e ∈ es, WithoutFaults d e) {k i : Nat} {call : ArbiterCall}
    (hcall : ((arbiterMachine sqrt).run ⟨w, []⟩ (es.take k)).threads[i]? = some call) :
    CallLife (es.take k) i call :=
  (callLife_run (fun e he => hes e (List.mem_of_mem_take he))).2 i call hcall

theorem record_perform {op : ArbiterOp} (hop : WithoutFaults d (.env op)) (w : ArbiterState) :
    (op.perform w).1.trustStore.get? d = w.trustStore.get? d := by
  cases op with
  | setPolicy policy =>
    unfold ArbiterOp.perform
    dsimp only
    split <;> rfl
  | setDomainScope scope => rfl
  | writeTrust id record =>
    cases record with
    | none => exact (w.trustStore.get?_remove id d).trans (if_neg (Ne.symm hop))
    | some trust => exact w.trustStore.get?_insert_of_ne trust (Ne.symm hop)

theorem recordWriteBack_lawful (sqrt : ℚ → ℚ) (d : String) :
    (recordWriteBack d).Lawful (arbiterProgram sqrt) (WithoutFaults d) (fun _ => True) (fun _ _ => True) where
  spawn w call hbegins _ := ⟨trivial, by cases call <;> first | exact not_false | exact hbegins.elim⟩
  next i input w call hstore _ _ := ⟨trivial, trivial, fun hcarries => Or.inl (reads_of_writesBack_next hstore hcarries)⟩
  other _ _ _ _ _ _ _ _ _ := trivial
  quiet i input w call _ hnot := record_next_of_not_writes hnot
  env op w hop _ := ⟨trivial, record_perform hop w, fun _ _ => trivial⟩
  reads call hreads := by cases call <;> first | exact not_false | exact hreads.elim

theorem writes_of_writesBack {call : ArbiterCall} (h : call.WritesBack d) : call.Writes d := by
  cases call <;> first | exact h | exact h.elim

/-- **The record that a call writes back is made from the one stored**, while reads stay current. -/
theorem madeFrom_at (hes : ∀ e ∈ es, WithoutFaults d e) (hcurrent : ReadsStayCurrent sqrt w d es) {q i : Nat}
    {input : ArbiterInput} {call : ArbiterCall} (hsteps : (arbiterProgram sqrt).StepsAt ⟨w, []⟩ es q i input call) :
    call.MadeFrom d (recordOf d ((arbiterMachine sqrt).run ⟨w, []⟩ (es.take q))) := by
  by_cases hback : call.WritesBack d
  · exact (recordWriteBack_lawful sqrt d).made_at trivial hes hcurrent hsteps hback (writes_of_writesBack hback)
  · exact madeFrom_of_not_writesBack hback _

theorem recordEffects_atomic (sqrt : ℚ → ℚ) (d : String) :
    (recordEffects d).Atomic (arbiterMachine sqrt) (PastRecord d) where
  unique := by
    rintro p e i ⟨op, now⟩ j ⟨op', now'⟩ ⟨input, call, rfl, hcall, hop, hnow⟩ ⟨input', call', he, hcall', hop', hnow'⟩
    obtain ⟨rfl, rfl⟩ := PoolEvent.step.inj he
    obtain rfl := Option.some.inj (hcall.symm.trans hcall')
    exact ⟨rfl, Prod.ext (Option.some.inj (hop.symm.trans hop')) (hnow.symm.trans hnow')⟩
  stays := by
    rintro p e i ⟨call, hcall, hpast⟩
    by_cases hown : ∃ input, e = .step i input
    · obtain ⟨input, rfl⟩ := hown
      exact ⟨_, thread_step_self hcall input, past_next hpast⟩
    · exact ⟨call, thread_step hcall (fun input he => hown ⟨input, he⟩), hpast⟩

/-- **Every event does at most one operation on the record**, while reads stay current. -/
theorem performs_run (hes : ∀ e ∈ es, WithoutFaults d e) (hcurrent : ReadsStayCurrent sqrt w d es) :
    (arbiterMachine sqrt).Along ((recordEffects d).Performs (arbiterMachine sqrt) (PastRecord d)) ⟨w, []⟩ es := by
  refine (arbiterMachine sqrt).along_of_getElem? _ _ _ (fun q e he => ?_)
  have hclean := hes e (List.mem_of_getElem? he)
  by_cases hcommits : ∃ i input call op, e = .step i input ∧
      ((arbiterMachine sqrt).run ⟨w, []⟩ (es.take q)).threads[i]? = some call ∧
      call.committedOp d ((arbiterMachine sqrt).run ⟨w, []⟩ (es.take q)).shared = some op
  · obtain ⟨i, input, call, op, rfl, hcall, hop⟩ := hcommits
    have hlife := callLife_at hes hcall
    obtain ⟨hundone, hdone⟩ := past_of_committedOp sqrt hop hlife.once hclean
    refine Or.inr ⟨i, (op, input.now), ⟨input, call, rfl, hcall, hop, rfl⟩, ⟨?_, ⟨_, thread_step_self hcall input, hdone⟩⟩, ?_⟩
    · rintro ⟨call', hcall', hpast⟩
      obtain rfl := Option.some.inj (hcall.symm.trans hcall')
      exact hundone hpast
    · refine (congrArg (recordOf d) (arbiter_step hcall input).1).trans ?_
      exact record_next_of_committedOp hop (madeFrom_at hes hcurrent ⟨he, hcall⟩) hclean
  · refine Or.inl ⟨?_, (recordWriteBack_lawful sqrt d).view_step hclean trivial ?_⟩
    · rintro i ⟨op, now⟩ ⟨input, call, hstep, hcall, hop, -⟩
      exact hcommits ⟨i, input, call, op, hstep, hcall, hop⟩
    · intro i input call hstep hcall
      cases hop : call.committedOp d ((arbiterMachine sqrt).run ⟨w, []⟩ (es.take q)).shared with
      | none => exact not_writes_of_committedOp hop
      | some op => exact absurd ⟨i, input, call, op, hstep, hcall, hop⟩ hcommits

/-! ## The count of the evidence -/

def TrustOp.isFeedback : TrustOp → Bool
  | .feedback _ => true
  | _ => false

def TrustOp.isReset : TrustOp → Bool
  | .lockdown => true
  | .restore _ => true
  | _ => false

theorem evidenceCount_onOutcome (trust : TrustScore) (outcome : ActionOutcome) (now : Int) :
    (trust.onOutcome outcome now).evidenceCount = TrustScore.nextCount trust.evidenceCount := by
  cases outcome <;> rfl

theorem countAfter_nextCount (evidenceCount more : Nat) :
    countAfter (TrustScore.nextCount evidenceCount) more = countAfter evidenceCount (more + 1) := by
  unfold countAfter TrustScore.nextCount
  rw [if_neg (Nat.succ_ne_zero more)]
  split <;> omega

theorem evidenceOf_foldl : ∀ (order : List (Nat × TrustOp × Int)) (stored : Option TrustScore),
    (∀ c ∈ order, c.2.1.isReset = false) →
    evidenceOf (order.foldl (fun v c => c.2.1.execute c.2.2 v) stored) =
      countAfter (evidenceOf stored) (order.countP (fun c => c.2.1.isFeedback))
  | [], stored, _ => rfl
  | ⟨i, op, now⟩ :: order, stored, h => by
    obtain ⟨hop, hrest⟩ := List.forall_mem_cons.1 h
    rw [List.foldl_cons, evidenceOf_foldl order _ hrest, List.countP_cons]
    cases op with
    | feedback outcome =>
      have hcount : evidenceOf (TrustOp.execute now stored (.feedback outcome)) =
          TrustScore.nextCount (evidenceOf stored) := by
        refine (evidenceCount_onOutcome _ outcome now).trans ?_
        cases stored <;> rfl
      exact (congrArg (fun n => countAfter n _) hcount).trans (countAfter_nextCount _ _)
    | decay elapsed =>
      have hcount : evidenceOf (TrustOp.execute now stored (.decay elapsed)) = evidenceOf stored := by
        cases stored <;> rfl
      exact congrArg (fun n => countAfter n _) hcount
    | lockdown => cases hop
    | restore target => cases hop

variable {order : List (Nat × TrustOp × Int)}

theorem feedbackCompleted_iff (hes : ∀ e ∈ es, WithoutFaults d e)
    (horder : (recordEffects d).SerialOrder (arbiterMachine sqrt) ⟨w, []⟩ es order) (i : Nat) :
    FeedbackCompleted sqrt w d es i ↔ ∃ op, (i, op) ∈ order ∧ op.1.isFeedback = true := by
  constructor
  · rintro ⟨outcome, k, input, hspawned, he, hout⟩
    obtain ⟨call, ⟨-, hcall⟩, hanswer⟩ := Lib.Program.exists_stepsAt he hout nofun
    obtain ⟨start, hstart, -, horigin⟩ := (callLife_at hes hcall).origin
    obtain rfl := Option.some.inj ((Lib.Program.spawned_of_take hstart).symm.trans hspawned)
    rcases horigin with horigin | rfl
    · cases call with
      | feedbackGet id outcome' => cases hanswer
      | feedbackSet id outcome' stored =>
        obtain ⟨rfl, rfl⟩ := Prod.mk.inj (Option.some.inj horigin)
        refine ⟨(.feedback outcome', input.now), (horder.committed i _).2 ⟨k, _, he, input, _, rfl, hcall, ?_, rfl⟩, rfl⟩
        simp [ArbiterCall.committedOp]
      | _ => cases horigin
    · cases hanswer
  · rintro ⟨⟨op, now⟩, hmem, hfeedback⟩
    obtain ⟨k, e, he, input, call, rfl, hcall, hop, -⟩ := (horder.committed i _).1 hmem
    obtain ⟨outcome, stored, rfl⟩ : ∃ outcome stored, call = .feedbackSet d outcome stored := by
      cases committedBy_of hop with
      | feedback outcome stored => exact ⟨outcome, stored, rfl⟩
      | _ => cases hfeedback
    obtain ⟨start, hstart, hbegins, horigin⟩ := (callLife_at hes hcall).origin
    have hstart' : start = .feedbackGet d outcome := by
      rcases horigin with horigin | hreturned
      · cases start with
        | feedbackGet id outcome' =>
          obtain ⟨rfl, rfl⟩ := Prod.mk.inj (Option.some.inj horigin)
          rfl
        | feedbackSet id outcome' stored' => exact hbegins.elim
        | _ => cases horigin
      · cases hreturned
    subst hstart'
    exact ⟨outcome, k, input, Lib.Program.spawned_of_take hstart, he, (arbiter_step hcall input).2⟩

theorem not_isReset_of_mem (horder : (recordEffects d).SerialOrder (arbiterMachine sqrt) ⟨w, []⟩ es order)
    (hresets : ∀ k i input call, (arbiterProgram sqrt).StepsAt ⟨w, []⟩ es k i input call → ¬ call.Resets d) :
    ∀ c ∈ order, c.2.1.isReset = false := by
  rintro ⟨i, op, now⟩ hmem
  obtain ⟨k, e, he, input, call, rfl, hcall, hop, -⟩ := (horder.committed i _).1 hmem
  have hnot := hresets k i input call ⟨he, hcall⟩
  cases committedBy_of hop with
  | lockdown => exact absurd rfl hnot
  | restore target => exact absurd rfl hnot
  | _ => rfl

theorem ncard_feedbackCompleted (hes : ∀ e ∈ es, WithoutFaults d e)
    (horder : (recordEffects d).SerialOrder (arbiterMachine sqrt) ⟨w, []⟩ es order) :
    {i | FeedbackCompleted sqrt w d es i}.ncard = order.countP (fun c => c.2.1.isFeedback) := by
  have hnodup : ((order.filter (fun c => c.2.1.isFeedback)).map Prod.fst).Nodup :=
    horder.once.sublist (List.filter_sublist.map Prod.fst)
  have hset : {i | FeedbackCompleted sqrt w d es i} =
      (((order.filter (fun c => c.2.1.isFeedback)).map Prod.fst).toFinset : Set Nat) := by
    ext i
    simp only [Set.mem_ofPred_eq, List.coe_toFinset, List.mem_map, List.mem_filter, feedbackCompleted_iff hes horder]
    constructor
    · rintro ⟨op, hmem, hop⟩
      exact ⟨(i, op), ⟨hmem, hop⟩, rfl⟩
    · rintro ⟨⟨i', op⟩, ⟨hmem, hop⟩, rfl⟩
      exact ⟨op, hmem, hop⟩
  rw [hset, Set.ncard_coe_finset, List.toFinset_card_of_nodup hnodup, List.length_map, List.countP_eq_length_filter]

/-- **No feedback is lost while reads stay current**: where no write of the record falls between a call's read of it and
its write, the record after the run is that of a sequential order, every completed feedback is counted, and the zero
record of a lockdown is not replaced by one computed before it. -/
theorem noFeedbackLost (sqrt : ℚ → ℚ) (w : ArbiterState) (d : String) (es : List ArbiterEvent)
    (hes : ∀ e ∈ es, WithoutFaults d e) (hcurrent : ReadsStayCurrent sqrt w d es) : NoFeedbackLost sqrt w d es := by
  obtain ⟨order, horder⟩ := Lib.Effects.exists_serialOrder (recordEffects_atomic sqrt d) _ es (performs_run hes hcurrent)
  refine ⟨⟨order, horder⟩, fun hresets => ?_, ?_⟩
  · rw [ncard_feedbackCompleted hes horder, ← evidenceOf_foldl order _ (not_isReset_of_mem horder hresets)]
    exact congrArg evidenceOf horder.view
  · intro k j input hlockdown i r n hread hwrite hrk
    refine Nat.le_of_not_lt (fun hkn => ?_)
    exact hcurrent i r n hread hwrite k j hrk hkn ⟨input, _, hlockdown, rfl⟩

end Runs

/-! ## Two feedbacks that overlap, and a feedback before a lockdown -/

/-- Both feedbacks have read the record when the first writes it. -/
def overlappingFeedbacks : List ArbiterEvent :=
  [.spawn (.feedbackGet "agent-7" .success), .spawn (.feedbackGet "agent-7" (.failure "timeout")), .step 0 ⟨1, false, []⟩,
    .step 1 ⟨2, false, []⟩, .step 0 ⟨3, false, []⟩, .step 1 ⟨4, false, []⟩]

/-- The feedback has returned when the lockdown begins. -/
def feedbackThenLockdown : List ArbiterEvent :=
  [.spawn (.feedbackGet "agent-7" .success), .step 0 ⟨1, false, []⟩, .step 0 ⟨2, false, []⟩,
    .spawn (.lockdownFreeze "agent-7"), .step 1 ⟨3, false, []⟩, .step 1 ⟨4, false, []⟩]

theorem feedbackThenLockdown_steps {r i : Nat} {input : ArbiterInput}
    (h : feedbackThenLockdown[r]? = some (.step i input)) : i = 0 ∧ (r = 1 ∨ r = 2) ∨ i = 1 ∧ (r = 4 ∨ r = 5) := by
  match r, h with
  | 0, h => cases h
  | 1, h => cases h; exact Or.inl ⟨rfl, Or.inl rfl⟩
  | 2, h => cases h; exact Or.inl ⟨rfl, Or.inr rfl⟩
  | 3, h => cases h
  | 4, h => cases h; exact Or.inr ⟨rfl, Or.inl rfl⟩
  | 5, h => cases h; exact Or.inr ⟨rfl, Or.inr rfl⟩
  | _ + 6, h => cases h

theorem noFeedbackLost_consecutive : NoFeedbackLost id approvingState "agent-7" feedbackThenLockdown := by
  refine noFeedbackLost id approvingState "agent-7" feedbackThenLockdown ?_ ?_
  · intro e he
    simp only [feedbackThenLockdown, List.mem_cons, List.not_mem_nil, or_false] at he
    rcases he with rfl | rfl | rfl | rfl | rfl | rfl <;> first | rfl | trivial
  · rintro i r n ⟨_, _, hread, -⟩ ⟨_, _, hwrite, -⟩ k j hrk hkn -
    have hr := feedbackThenLockdown_steps hread.1
    have hn := feedbackThenLockdown_steps hwrite.1
    omega

theorem feedbackCompleted_overlapping :
    {i | FeedbackCompleted id approvingState "agent-7" overlappingFeedbacks i} = {0, 1} := by
  have hspawned : spawned overlappingFeedbacks =
      [.feedbackGet "agent-7" .success, .feedbackGet "agent-7" (.failure "timeout")] := rfl
  ext i
  constructor
  · rintro ⟨outcome, k, input, hcall, -⟩
    rw [hspawned] at hcall
    match i, hcall with
    | 0, _ => exact Or.inl rfl
    | 1, _ => exact Or.inr rfl
    | _ + 2, hcall => cases hcall
  · rintro (rfl | rfl)
    · exact ⟨.success, 4, _, rfl, rfl, by decide +kernel⟩
    · exact ⟨.failure "timeout", 5, _, rfl, rfl, by decide +kernel⟩

/-- The place is none that resets a record. -/
def placeKeeps (_k _i : Nat) : ArbiterCall → Bool
  | .lockdownSet _ => false
  | .restoreSet _ _ => false
  | _ => true

/-- One of two feedbacks is not counted, and a lockdown's record is replaced by one computed before it. -/
theorem not_noFeedbackLost : ¬ NoFeedbackLost id approvingState "agent-7" overlappingFeedbacks ∧
    ¬ NoFeedbackLost id approvingState "agent-7" lockdownRun := by
  constructor
  · intro h
    have hcount := h.counted ?_
    · rw [feedbackCompleted_overlapping, Set.ncard_pair (by decide)] at hcount
      exact absurd hcount (by decide +kernel)
    · -- both calls are feedbacks, which reset nothing
      intro k i input call hstep hresets
      have hplace : placeKeeps k i call = true := hstep.check (by decide +kernel)
      cases call with
      | lockdownSet id => cases hplace
      | restoreSet id target => cases hplace
      | _ => exact hresets
  · intro h
    have := h.kept 4 1 ⟨3, false, []⟩ ⟨rfl, rfl⟩ 0 1 5 ⟨_, _, ⟨rfl, rfl⟩, rfl⟩ ⟨_, _, ⟨rfl, rfl⟩, rfl⟩ (by decide)
    omega

end Dynamic
end Rbac
end Kirino
