import Kirino.Session.OneShot
/-!
# OneShotRuns — the marks of a one-shot store, over runs (`packages/session/src/one_shot.rs`)

Here the store is called with any ids and expiries.  A call marks its id with the expiry it brings, also when the id is
already marked: a replay may move the record to an earlier expiry, from which a sweep drops it.  Where no replay does that
an id is fresh once before its expiry (`fresh_once`); the ceiling holds in every run.
-/
namespace Kirino
namespace Session

open Lib (HashMap Machine)

/-- A call of `check_and_mark`, and the clock that it reads. -/
structure MarkCall where
  now : Nat
  jti : String
  expiry : Int
deriving DecidableEq, Repr

def oneShotMachine : Machine OneShotStore MarkCall Bool where
  step st call := (st.checkAndMark call.now call.jti call.expiry).2
  out st call := (st.checkAndMark call.now call.jti call.expiry).1

namespace OneShotStore

/-! ## The ceiling -/

theorem maybePrune_len {st : OneShotStore} (h : st.used.len ≤ st.maxJtis) (now : Nat) :
    (st.maybePrune now).used.len ≤ (st.maybePrune now).maxJtis ∧ (st.maybePrune now).maxJtis = st.maxJtis := by
  unfold maybePrune
  split
  · exact ⟨Nat.le_trans (HashMap.len_retain_le _ _) h, rfl⟩
  · exact ⟨h, rfl⟩

/-- A call marks below the ceiling only. -/
theorem checkAndMark_len {st : OneShotStore} (h : st.used.len ≤ st.maxJtis) (now : Nat) (jti : String) (expiry : Int) :
    (st.checkAndMark now jti expiry).2.used.len ≤ (st.checkAndMark now jti expiry).2.maxJtis ∧
      (st.checkAndMark now jti expiry).2.maxJtis = st.maxJtis := by
  obtain ⟨hlen, hmax⟩ := maybePrune_len h now
  unfold checkAndMark
  by_cases hpoisoned : st.poisoned = true
  · rw [if_pos hpoisoned]
    exact ⟨h, rfl⟩
  · rw [if_neg hpoisoned]
    dsimp only
    generalize st.maybePrune now = pruned at hlen hmax ⊢
    by_cases hfull : pruned.used.len ≥ pruned.maxJtis
    · simp only [hfull, decide_true, Bool.true_and, if_true, decide_eq_true_eq]
      split
      · exact ⟨Nat.le_trans (HashMap.len_retain_le _ _) hlen, hmax⟩
      · next hroom =>
        have hinsert := HashMap.len_insert_le (sweep pruned.used now) jti expiry
        exact ⟨Nat.le_trans hinsert (Nat.lt_of_not_le hroom), hmax⟩
    · simp only [hfull, decide_false, Bool.false_and, if_false, Bool.false_eq_true]
      have hinsert := HashMap.len_insert_le pruned.used jti expiry
      exact ⟨Nat.le_trans hinsert (Nat.lt_of_not_le hfull), hmax⟩

/-- **The store never holds more ids than its ceiling**, in any run. -/
theorem len_le_maxJtis (maxJtis : Nat) (calls : List MarkCall) :
    (oneShotMachine.run (withMaxJtis maxJtis) calls).used.len ≤ max maxJtis 1 := by
  have hrun := Machine.run_invariant oneShotMachine (fun _ _ => True)
    (fun st => st.used.len ≤ st.maxJtis ∧ st.maxJtis = max maxJtis 1)
    (fun st call hst _ => ⟨(checkAndMark_len hst.1 call.now call.jti call.expiry).1,
      (checkAndMark_len hst.1 call.now call.jti call.expiry).2.trans hst.2⟩)
    (withMaxJtis maxJtis) calls ⟨Nat.zero_le _, rfl⟩ (Machine.along_of_forall _ _ _ _ (fun _ _ _ => trivial))
  rw [← hrun.2]
  exact hrun.1

/-! ## Fresh once -/

/-- The call is no replay of a live id with an earlier expiry than is on record for it. -/
def KeepsExpiry (st : OneShotStore) (call : MarkCall) : Prop :=
  ∀ x, st.used.get? call.jti = some x → x ≤ call.expiry ∨ x ≤ call.now

/-- The id is on record with at least this expiry, or the clock has reached it. -/
def RecordedUntil (jti : String) (expiry : Int) (st : OneShotStore) (now : Nat) : Prop :=
  st.used.RecordedFrom jti expiry ∨ expiry ≤ now

variable {st : OneShotStore} {call : MarkCall} {jti : String} {expiry : Int}

theorem recordedUntil_marked (h : RecordedUntil jti expiry st call.now) :
    (st.marked call.now).RecordedFrom jti expiry ∨ expiry ≤ call.now := by
  rcases h with hrecorded | hpast
  · exact recorded_marked (fun _ x _ hle hdrop => Int.le_trans hle hdrop) hrecorded
  · exact Or.inr hpast

/-- **A call that keeps the expiry keeps the record.** -/
theorem recordedUntil_step (hkeeps : KeepsExpiry st call) (h : RecordedUntil jti expiry st call.now) :
    RecordedUntil jti expiry (oneShotMachine.step st call) call.now := by
  have hmarked := recordedUntil_marked h
  unfold RecordedUntil
  show (st.checkAndMark call.now call.jti call.expiry).2.used.RecordedFrom jti expiry ∨ _
  rcases checkAndMark_cases st call.now call.jti call.expiry with ⟨-, hsame⟩ | ⟨-, hused⟩ | ⟨-, hused⟩
  · rw [hsame]
    exact h
  · rw [hused]
    exact hmarked
  · rw [hused]
    rcases h with ⟨x, hx, hle⟩ | hpast
    · by_cases hjti : jti = call.jti
      · subst hjti
        rcases hkeeps x hx with hlater | hpast
        · exact Or.inl (HashMap.recorded_insert_self (Int.le_trans hle hlater))
        · exact Or.inr (Int.le_trans hle hpast)
      · exact hmarked.imp_left (HashMap.recorded_insert (fun hsame => absurd hsame hjti))
    · exact Or.inr hpast

/-- An id answered fresh is on record from then on, and was not before. -/
theorem fresh_spec (hfresh : oneShotMachine.out st call = false) :
    RecordedUntil call.jti call.expiry (oneShotMachine.step st call) call.now ∧
      ∀ expiry, RecordedUntil call.jti expiry st call.now → expiry ≤ call.now := by
  have hanswer : (st.checkAndMark call.now call.jti call.expiry).1 = false := hfresh
  rcases checkAndMark_cases st call.now call.jti call.expiry with ⟨htrue, -⟩ | ⟨htrue, -⟩ | ⟨hsome, hused⟩
  · cases htrue.symm.trans hanswer
  · cases htrue.symm.trans hanswer
  · refine ⟨Or.inl ?_, fun expiry hrecorded => ?_⟩
    · show (st.checkAndMark call.now call.jti call.expiry).2.used.RecordedFrom call.jti call.expiry
      rw [hused]
      exact HashMap.recorded_insert_self (Int.le_refl _)
    · refine (recordedUntil_marked hrecorded).resolve_left (fun hmarked => ?_)
      obtain ⟨x, hx, -⟩ := hmarked
      rw [hsome, hx] at hanswer
      cases hanswer

end OneShotStore

open OneShotStore

/-- What a one-shot store promises of a run: an id is fresh once before its expiry, and the ceiling holds at every moment. -/
structure OneShot (maxJtis : Nat) (calls : List MarkCall) : Prop where
  once : ∀ (i j : Nat) (call later : MarkCall), i < j → calls[i]? = some call → calls[j]? = some later → later.jti = call.jti →
    (oneShotMachine.outs (withMaxJtis maxJtis) calls)[i]? = some false → (later.now : Int) < call.expiry →
      (oneShotMachine.outs (withMaxJtis maxJtis) calls)[j]? = some true
  ceiling : ∀ n, (oneShotMachine.run (withMaxJtis maxJtis) (calls.take n)).used.len ≤ max maxJtis 1

/-- **An id is fresh once before its expiry, where no replay moves the record of a live id to an earlier expiry.** -/
theorem fresh_once (maxJtis : Nat) (calls : List MarkCall) (hclock : calls.Pairwise (fun c d => c.now ≤ d.now))
    (hkeeps : oneShotMachine.Along KeepsExpiry (withMaxJtis maxJtis) calls) : OneShot maxJtis calls where
  once i j call later hij hi hj hjti hfresh htime := by
    have hrecorded := (fresh_spec (oneShotMachine.out_of_getElem? hi hfresh)).1
    have hthere := oneShotMachine.timed_invariant_after MarkCall.now KeepsExpiry (RecordedUntil call.jti call.expiry)
      (fun _ _ _ hle h => h.imp_right (fun hpast => by omega)) (fun _ _ h hsafe => recordedUntil_step hsafe h)
      (withMaxJtis maxJtis) calls hclock hkeeps i j call later hij hi hj hrecorded
    rw [Machine.outs_getElem?, hj, Option.map_some]
    cases hout : oneShotMachine.out (oneShotMachine.run (withMaxJtis maxJtis) (calls.take j)) later with
    | true => rfl
    | false =>
      have hpast := (fresh_spec hout).2 call.expiry (hjti ▸ hthere)
      omega
  ceiling n := len_le_maxJtis maxJtis (calls.take n)

/-- A replay with the expiry of the first call is refused, also after a sweep. -/
theorem fresh_once_same_expiry : OneShot 10 [⟨100, "a", 1000⟩, ⟨100, "a", 1000⟩, ⟨200, "a", 1000⟩] :=
  fresh_once 10 _ (by decide) (by
    refine ⟨fun x hx => ?_, fun x hx => ?_, fun x hx => ?_, trivial⟩
    · cases hx
    · cases hx
      exact Or.inl (by decide)
    · cases hx
      exact Or.inl (by decide))

/-- The replay brings an expiry that is past by the third call. -/
def earlierReplay : List MarkCall := [⟨100, "a", 1000⟩, ⟨100, "a", 50⟩, ⟨200, "a", 1000⟩]

/-- **A replay with an earlier expiry makes way for the next**: the id is fresh again eight hundred seconds early. -/
theorem fresh_twice : ¬ OneShot 10 earlierReplay := by
  intro h
  have houts : oneShotMachine.outs (withMaxJtis 10) earlierReplay = [false, true, false] := by decide +kernel
  have hlast := h.once 0 2 ⟨100, "a", 1000⟩ ⟨200, "a", 1000⟩ (by decide) rfl rfl rfl (by rw [houts]; rfl) (by decide)
  rw [houts] at hlast
  cases hlast

end Session
end Kirino
