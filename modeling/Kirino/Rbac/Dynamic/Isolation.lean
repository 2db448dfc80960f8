import Kirino.Rbac.Dynamic.TrustRuns
/-!
# Isolation — what the calls about other delegators do to one (`rbac/dynamic/arbiter.rs`, `trust.rs`)

The steps that are about a delegator, with the changes of policy and scope, make a run of their own (`eventsAt Concerns`).
That run starts with the delegator's record and detector alone, and the other calls take no step in it: a decay cycle
lists one record.  It answers as the run they all take part in, as long as the detectors have room for the delegator.
-/
namespace Kirino
namespace Rbac
namespace Dynamic

open Lib (HashMap Pool PoolEvent Machine)

/-- The delegator that the call's next step is about; none when it lists the records, or is at its end. -/
def ArbiterCall.delegator : ArbiterCall → Option String
  | .authorizeFrozen request => some request.delegator.id
  | .authorizeWeights request => some request.delegator.id
  | .authorizeTrust request _ => some request.delegator.id
  | .authorizeScope request _ _ => some request.delegator.id
  | .authorizeDetectors request _ _ _ => some request.delegator.id
  | .authorizeLevel request _ => some request.delegator.id
  | .feedbackGet id _ => some id
  | .feedbackSet id _ _ => some id
  | .lockdownFreeze id => some id
  | .lockdownSet id => some id
  | .restoreThaw id _ => some id
  | .restoreSet id _ => some id
  | .restoreDetector id => some id
  | .decayList _ => none
  | .decayGet _ id _ _ => some id
  | .decaySet _ id _ _ _ => some id
  | .returned => none

def ArbiterCall.lists : ArbiterCall → Bool
  | .decayList _ => true
  | _ => false

/-- The step of the call is about the delegator, or about all. -/
def ArbiterCall.concerns (d : String) (call : ArbiterCall) : Bool := call.lists || call.delegator == some d

/-- Whether the event is about the delegator, or about all. -/
def Concerns (d : String) (p : ArbiterPool) : ArbiterEvent → Bool
  | .spawn _ => true
  | .step i _ =>
    match p.threads[i]? with
    | some call => call.concerns d
    | none => false
  | .env (.writeTrust id _) => id == d
  | .env _ => true

/-- The detectors have room for the delegator, at a step that observes its request. -/
def hasRoom (d : String) (p : ArbiterPool) : ArbiterEvent → Bool
  | .step i _ =>
    match p.threads[i]? with
    | some (.authorizeDetectors request _ _ _) =>
      request.delegator.id != d || decide (p.shared.detectors.len < p.shared.maxDetectors) ||
        (p.shared.detectors.get? d).isSome
    | _ => true
  | _ => true

/-- A call that an event starts is at a place that calls begin at. -/
def SpawnsBegin : ArbiterEvent → Prop
  | .spawn call => call.Begins
  | _ => True

/-- What of an answer the delegator hears: how many records a cycle has come to is not its own. -/
def heard : Option ArbiterAnswer → Option ArbiterAnswer
  | some (.decayed _) => none
  | answer => answer

/-- The map with the entry of one key alone. -/
def onlyKey {V : Type} (m : HashMap String V) (d : String) : HashMap String V := m.retain (fun id _ => id == d)

/-- The delegator's part of the state, with what is common to all. -/
def ArbiterState.only (w : ArbiterState) (d : String) : ArbiterState :=
  { w with trustStore := onlyKey w.trustStore d, detectors := onlyKey w.detectors d, frozen := w.frozen.filter (· = d) }

section State
variable {d : String} {w v : ArbiterState} {input : ArbiterInput}

/-- The second map holds the entry of the key that the first one has, and no other. -/
structure OneOf {V : Type} (d : String) (m m' : HashMap String V) : Prop where
  here : m'.get? d = m.get? d
  only : ∀ id, id ≠ d → m'.get? id = none

/-- The second state is the first as far as the delegator goes. -/
structure Part (d : String) (w v : ArbiterState) : Prop where
  trustStore : OneOf d w.trustStore v.trustStore
  detectors : OneOf d w.detectors v.detectors
  policy : v.policy = w.policy
  domainScope : v.domainScope = w.domainScope
  maxDetectors : v.maxDetectors = w.maxDetectors
  frozen : d ∈ v.frozen ↔ d ∈ w.frozen

namespace OneOf
variable {V : Type} {m m' : HashMap String V}

theorem onlyKey (m : HashMap String V) (d : String) : OneOf d m (onlyKey m d) where
  here := by simp [Dynamic.onlyKey, HashMap.get?_retain_of_key]
  only id h := by simp [Dynamic.onlyKey, HashMap.get?_retain_of_key, h]

theorem insert (h : OneOf d m m') (x : V) : OneOf d (m.insert d x) (m'.insert d x) where
  here := by rw [HashMap.get?_insert_self, HashMap.get?_insert_self]
  only id hid := by rw [HashMap.get?_insert_of_ne _ _ hid, h.only id hid]

theorem remove (h : OneOf d m m') : OneOf d (m.remove d) (m'.remove d) where
  here := by rw [HashMap.get?_remove, HashMap.get?_remove, if_pos rfl, if_pos rfl]
  only id hid := by rw [HashMap.get?_remove, if_neg hid, h.only id hid]

theorem insert_other (h : OneOf d m m') {id : String} (hid : id ≠ d) (x : V) : OneOf d (m.insert id x) m' where
  here := by rw [HashMap.get?_insert_of_ne _ _ (Ne.symm hid), h.here]
  only := h.only

theorem remove_other (h : OneOf d m m') {id : String} (hid : id ≠ d) : OneOf d (m.remove id) m' where
  here := by rw [HashMap.get?_remove, if_neg (Ne.symm hid), h.here]
  only := h.only

/-- A map that lacks its one key is empty. -/
theorem len_eq_zero (h : OneOf d m m') (hnone : m.get? d = none) : m'.len = 0 := by
  have hkeys : ∀ k x, m'.get? k = some x → ∃ y, (HashMap.empty : HashMap String V).get? k = some y := by
    intro k x hk
    by_cases hkd : k = d
    · rw [hkd, h.here, hnone] at hk
      cases hk
    · rw [h.only k hkd] at hk
      cases hk
  exact Nat.le_zero.1 (m'.len_le_of_keys HashMap.empty hkeys)

end OneOf

theorem part_only (w : ArbiterState) (d : String) : Part d w (w.only d) where
  trustStore := .onlyKey w.trustStore d
  detectors := .onlyKey w.detectors d
  policy := rfl
  domainScope := rfl
  maxDetectors := rfl
  frozen := by simp [ArbiterState.only]

namespace Part

theorem getTrust (h : Part d w v) : v.getTrust input d = w.getTrust input d := by
  unfold ArbiterState.getTrust
  rw [h.trustStore.here]

theorem setTrust (h : Part d w v) (trust : TrustScore) : Part d (w.setTrust input d trust) (v.setTrust input d trust) := by
  unfold ArbiterState.setTrust
  by_cases herr : input.storeError = true
  · rw [if_pos herr, if_pos herr]
    exact h
  · rw [if_neg herr, if_neg herr]
    exact { h with trustStore := h.trustStore.insert trust }

theorem setTrust_other (h : Part d w v) {id : String} (hid : id ≠ d) (trust : TrustScore) :
    Part d (w.setTrust input id trust) v := by
  unfold ArbiterState.setTrust
  split
  · exact h
  · exact { h with trustStore := h.trustStore.insert_other hid trust }

/-- **A request is observed alike** where the detectors have room for the delegator. -/
theorem observe (h : Part d w v) (sqrt : ℚ → ℚ) {request : ActionRequest} (hid : request.delegator.id = d)
    (hroom : w.detectors.len < w.maxDetectors ∨ w.detectors.get? d ≠ none) :
    (v.observe sqrt request).1 = (w.observe sqrt request).1 ∧
      Part d (w.observe sqrt request).2 (v.observe sqrt request).2 := by
  have hw : ¬ (w.maxDetectors ≤ w.detectors.len ∧ w.detectors.get? d = none) := by
    rintro ⟨hfull, hnone⟩
    exact hroom.elim (fun hlt => by omega) (fun hsome => hsome hnone)
  have hv : ¬ (v.maxDetectors ≤ v.detectors.len ∧ v.detectors.get? d = none) := by
    rintro ⟨hfull, hnone⟩
    rw [h.detectors.here] at hnone
    rw [h.detectors.len_eq_zero hnone, h.maxDetectors] at hfull
    exact hroom.elim (fun hlt => by omega) (fun hsome => hsome hnone)
  unfold ArbiterState.observe
  dsimp only
  rw [hid, if_neg hw, if_neg hv, h.detectors.here]
  exact ⟨rfl, { h with detectors := h.detectors.insert _ }⟩

theorem observe_other (h : Part d w v) (sqrt : ℚ → ℚ) {request : ActionRequest} (hid : request.delegator.id ≠ d) :
    Part d (w.observe sqrt request).2 v := by
  unfold ArbiterState.observe
  dsimp only
  split
  · exact h
  · exact { h with detectors := h.detectors.insert_other hid _ }

/-- A cycle over the part lists the delegator where one over the whole does, and nobody else. -/
theorem listIds (h : Part d w v) : v.listIds input = if d ∈ w.listIds input then [d] else [] := by
  have hmem : ∀ id, id ∈ v.listIds input ↔ id = d ∧ d ∈ w.listIds input := by
    intro id
    rw [mem_listIds_iff, mem_listIds_iff]
    by_cases hid : id = d
    · rw [hid, h.trustStore.here]
      simp
    · simp [h.trustStore.only id hid, hid]
  have hnodup := listIds_nodup v input
  split
  · rename_i hd
    refine List.perm_singleton.1 ((List.perm_ext_iff_of_nodup hnodup (List.nodup_singleton d)).2 (fun id => ?_))
    rw [hmem id]
    simp [hd]
  · rename_i hd
    exact List.eq_nil_iff_forall_not_mem.2 (fun id hid => hd ((hmem id).1 hid).2)

end Part

end State

/-! ## One step -/

/-- The place of the call in the run of the delegator's own steps, where that run has come to one. -/
def ArbiterCall.own (d : String) : ArbiterCall → Option ArbiterCall
  | .decayGet elapsed id rest _ => if d ∈ id :: rest then some (.decayGet elapsed d [] 0) else none
  | .decaySet elapsed id score rest _ =>
    if id = d then some (.decaySet elapsed d score [] 0) else if d ∈ rest then some (.decayGet elapsed d [] 0) else none
  | call => if call.concerns d then some call else none

theorem own_decayNext (d : String) (elapsed : Duration) (decayed : Nat) (ids : List String) :
    (decayNext elapsed decayed ids).1.own d = if d ∈ ids then some (.decayGet elapsed d [] 0) else none := by
  cases ids with
  | nil => rfl
  | cons id rest => rfl

theorem heard_decayNext (elapsed : Duration) (decayed : Nat) (ids : List String) :
    heard (decayNext elapsed decayed ids).2 = none := by
  cases ids <;> rfl

/-- The second call's next place is the one of the first in the delegator's own run. -/
def KeepsPlace (d : String) (x y : ArbiterState × ArbiterCall × Option ArbiterAnswer) : Prop :=
  Part d x.1 y.1 ∧ (∀ own, x.2.1.own d = some own → y.2.1 = own) ∧ heard x.2.2 = heard y.2.2

/-- The call is not in the middle of a cycle. -/
def ArbiterCall.Plain : ArbiterCall → Prop
  | .decayGet _ _ _ _ => False
  | .decaySet _ _ _ _ _ => False
  | _ => True

theorem ArbiterCall.own_of_plain (d : String) {call : ArbiterCall} (h : call.Plain) :
    call.own d = if call.concerns d then some call else none := by
  cases call with
  | decayGet elapsed id rest decayed => exact h.elim
  | decaySet elapsed id score rest decayed => exact h.elim
  | _ => rfl

theorem ArbiterCall.eq_own {d : String} {call own : ArbiterCall} (hown : call.own d = some own) (h : call.Plain) :
    call = own := by
  rw [call.own_of_plain d h] at hown
  exact Option.some.inj (Option.ite_none_right_eq_some.1 hown).2

theorem delegator_of_concerns {d : String} {call : ArbiterCall} (h : call.concerns d = true) (hlists : call.lists = false) :
    call.delegator = some d := by
  unfold ArbiterCall.concerns at h
  rw [hlists, Bool.false_or, beq_iff_eq] at h
  exact h

/-- A call whose step is about the delegator has its place in the own run. -/
theorem exists_own {d : String} {call : ArbiterCall} (h : call.concerns d = true) : ∃ own, call.own d = some own := by
  have hplain : call.Plain → ∃ own, call.own d = some own := fun hp => ⟨call, (call.own_of_plain d hp).trans (if_pos h)⟩
  cases call with
  | decayGet elapsed id rest decayed =>
    obtain rfl : id = d := Option.some.inj (delegator_of_concerns h rfl)
    exact ⟨_, if_pos List.mem_cons_self⟩
  | decaySet elapsed id score rest decayed =>
    obtain rfl : id = d := Option.some.inj (delegator_of_concerns h rfl)
    exact ⟨_, if_pos rfl⟩
  | _ => exact hplain trivial

/-- Outside a cycle, a call about another delegator has no place in the own run. -/
theorem own_ne_some {d : String} {call own : ArbiterCall} (h : call.Plain) (hlists : call.lists = false)
    (hother : call.delegator ≠ some d) : call.own d ≠ some own := by
  rw [call.own_of_plain d h, if_neg (fun hc => hother (delegator_of_concerns hc hlists))]
  exact Option.some_ne_none own ∘ Eq.symm

section Step
variable {d : String} {w v : ArbiterState} {input : ArbiterInput} {sqrt : ℚ → ℚ} {call own : ArbiterCall}

/-- Calls that come to one place, in no cycle, keep it. -/
theorem keepsPlace_of_eq {x y : ArbiterState × ArbiterCall × Option ArbiterAnswer} (hpart : Part d x.1 y.1)
    (h : x.2 = y.2) (hplain : x.2.1.Plain) : KeepsPlace d x y :=
  ⟨hpart, fun _ hown => h ▸ ArbiterCall.eq_own hown hplain, h ▸ rfl⟩

/-- **A step about the delegator does the same in its own run.** -/
theorem next_own (h : Part d w v) (honce : call.ListsOnce) (hconcerns : call.concerns d = true)
    (hroom : ∀ request policy trust scope, call = .authorizeDetectors request policy trust scope →
      w.detectors.len < w.maxDetectors ∨ w.detectors.get? d ≠ none)
    (hown : call.own d = some own) : KeepsPlace d (call.next sqrt input w) (own.next sqrt input v) := by
  cases call with
  | decayList elapsed =>
    obtain rfl := ArbiterCall.eq_own hown trivial
    unfold ArbiterCall.next
    dsimp only
    by_cases herr : input.storeError = true
    · rw [if_pos herr, if_pos herr]
      exact keepsPlace_of_eq h rfl trivial
    · rw [if_neg herr, if_neg herr, h.listIds]
      refine ⟨h, fun own' hown' => ?_, ?_⟩
      · rw [own_decayNext] at hown'
        obtain ⟨hd, hown'⟩ := Option.ite_none_right_eq_some.1 hown'
        rw [if_pos hd]
        exact Option.some.inj hown'
      · exact (heard_decayNext _ _ _).trans (heard_decayNext _ _ _).symm
  | decayGet elapsed id rest decayed =>
    obtain rfl : id = d := Option.some.inj (delegator_of_concerns hconcerns rfl)
    have hrest : id ∉ rest := (List.nodup_cons.1 honce).1
    obtain rfl := Option.some.inj ((if_pos List.mem_cons_self).symm.trans hown)
    unfold ArbiterCall.next
    dsimp only
    rw [h.getTrust]
    cases w.getTrust input id with
    | error e => exact keepsPlace_of_eq h rfl trivial
    | ok stored =>
      cases stored with
      | none =>
        refine ⟨h, fun own' hown' => ?_, (heard_decayNext _ _ _).trans (heard_decayNext _ _ _).symm⟩
        rw [own_decayNext, if_neg hrest] at hown'
        cases hown'
      | some score => exact ⟨h, fun own' hown' => Option.some.inj ((if_pos rfl).symm.trans hown'), rfl⟩
  | decaySet elapsed id score rest decayed =>
    obtain rfl : id = d := Option.some.inj (delegator_of_concerns hconcerns rfl)
    have hrest : id ∉ rest := (List.nodup_cons.1 honce).1
    obtain rfl := Option.some.inj ((if_pos rfl).symm.trans hown)
    unfold ArbiterCall.next
    dsimp only
    by_cases herr : input.storeError = true
    · rw [if_pos herr, if_pos herr]
      exact keepsPlace_of_eq h rfl trivial
    · rw [if_neg herr, if_neg herr]
      refine ⟨h.setTrust _, fun own' hown' => ?_, (heard_decayNext _ _ _).trans (heard_decayNext _ _ _).symm⟩
      rw [own_decayNext, if_neg hrest] at hown'
      cases hown'
  | authorizeFrozen request =>
    obtain rfl := ArbiterCall.eq_own hown trivial
    obtain rfl : request.delegator.id = d :=
      Option.some.inj (delegator_of_concerns hconcerns rfl)
    unfold ArbiterCall.next
    dsimp only
    by_cases hfrozen : request.delegator.id ∈ w.frozen
    · rw [if_pos hfrozen, if_pos (h.frozen.2 hfrozen)]
      exact keepsPlace_of_eq h rfl trivial
    · rw [if_neg hfrozen, if_neg (fun hv => hfrozen (h.frozen.1 hv))]
      exact keepsPlace_of_eq h rfl trivial
  | authorizeWeights request =>
    obtain rfl := ArbiterCall.eq_own hown trivial
    refine keepsPlace_of_eq h ?_ trivial
    simp only [ArbiterCall.next, h.policy]
  | authorizeTrust request policy =>
    obtain rfl := ArbiterCall.eq_own hown trivial
    obtain rfl : request.delegator.id = d :=
      Option.some.inj (delegator_of_concerns hconcerns rfl)
    refine keepsPlace_of_eq h ?_ trivial
    simp only [ArbiterCall.next, h.getTrust]
  | authorizeScope request policy trust =>
    obtain rfl := ArbiterCall.eq_own hown trivial
    refine keepsPlace_of_eq h ?_ trivial
    simp only [ArbiterCall.next, h.domainScope]
  | authorizeDetectors request policy trust scope =>
    obtain rfl := ArbiterCall.eq_own hown trivial
    have hid : request.delegator.id = d :=
      Option.some.inj (delegator_of_concerns hconcerns rfl)
    obtain ⟨hscore, hpart⟩ := h.observe sqrt hid (hroom request policy trust scope rfl)
    refine keepsPlace_of_eq hpart ?_ trivial
    simp only [ArbiterCall.next, hscore]
  | authorizeLevel request risk =>
    obtain rfl := ArbiterCall.eq_own hown trivial
    refine keepsPlace_of_eq h ?_ trivial
    simp only [ArbiterCall.next, h.policy]
  | feedbackGet id outcome =>
    obtain rfl := ArbiterCall.eq_own hown trivial
    obtain rfl : id = d := Option.some.inj (delegator_of_concerns hconcerns rfl)
    refine keepsPlace_of_eq h ?_ trivial
    simp only [ArbiterCall.next, h.getTrust]
  | feedbackSet id outcome stored =>
    obtain rfl := ArbiterCall.eq_own hown trivial
    obtain rfl : id = d := Option.some.inj (delegator_of_concerns hconcerns rfl)
    exact keepsPlace_of_eq (h.setTrust _) rfl trivial
  | lockdownFreeze id =>
    obtain rfl := ArbiterCall.eq_own hown trivial
    refine keepsPlace_of_eq { h with frozen := ?_ } rfl trivial
    simp [ArbiterCall.next, h.frozen]
  | lockdownSet id =>
    obtain rfl := ArbiterCall.eq_own hown trivial
    obtain rfl : id = d := Option.some.inj (delegator_of_concerns hconcerns rfl)
    exact keepsPlace_of_eq (h.setTrust _) rfl trivial
  | restoreThaw id target =>
    obtain rfl := ArbiterCall.eq_own hown trivial
    refine keepsPlace_of_eq { h with frozen := ?_ } rfl trivial
    simp [ArbiterCall.next, h.frozen]
  | restoreSet id target =>
    obtain rfl := ArbiterCall.eq_own hown trivial
    obtain rfl : id = d := Option.some.inj (delegator_of_concerns hconcerns rfl)
    exact keepsPlace_of_eq (h.setTrust _) rfl trivial
  | restoreDetector id =>
    obtain rfl := ArbiterCall.eq_own hown trivial
    obtain rfl : id = d := Option.some.inj (delegator_of_concerns hconcerns rfl)
    exact keepsPlace_of_eq { h with detectors := h.detectors.remove } rfl trivial
  | returned => cases hconcerns

/-- **A step about another delegator leaves the own run where it is.** -/
theorem next_other (sqrt : ℚ → ℚ) (input : ArbiterInput) (h : Part d w v) (hother : call.concerns d = false) :
    Part d (call.next sqrt input w).1 v ∧
      ∀ own, (call.next sqrt input w).2.1.own d = some own → call.own d = some own := by
  have hne : ∀ id, call.delegator = some id → id ≠ d := by
    rintro id hid rfl
    rw [ArbiterCall.concerns, hid, beq_self_eq_true, Bool.or_true] at hother
    cases hother
  -- where the call goes on to is about the same delegator, or at its end
  have hstays : ∀ {next : ArbiterCall}, next.Plain → next.lists = false →
      next.delegator = call.delegator ∨ next.delegator = none →
      ∀ own, next.own d = some own → call.own d = some own := by
    intro next hplain hlists hsame own hown
    refine absurd hown (own_ne_some hplain hlists (fun hd => ?_))
    rcases hsame with hsame | hnone
    · exact hne d (hsame ▸ hd) rfl
    · exact absurd (hnone ▸ hd) (by simp)
  cases call with
  | authorizeFrozen request =>
    unfold ArbiterCall.next
    dsimp only
    split
    · exact ⟨h, hstays trivial rfl (Or.inr rfl)⟩
    · exact ⟨h, hstays trivial rfl (Or.inl rfl)⟩
  | authorizeWeights request => exact ⟨h, hstays trivial rfl (Or.inl rfl)⟩
  | authorizeTrust request policy => exact ⟨h, hstays trivial rfl (Or.inl rfl)⟩
  | authorizeScope request policy trust => exact ⟨h, hstays trivial rfl (Or.inl rfl)⟩
  | authorizeDetectors request policy trust scope =>
    exact ⟨h.observe_other sqrt (hne _ rfl), hstays trivial rfl (Or.inl rfl)⟩
  | authorizeLevel request risk => exact ⟨h, hstays trivial rfl (Or.inr rfl)⟩
  | feedbackGet id outcome => exact ⟨h, hstays trivial rfl (Or.inl rfl)⟩
  | feedbackSet id outcome stored => exact ⟨h.setTrust_other (hne _ rfl) _, hstays trivial rfl (Or.inr rfl)⟩
  | lockdownFreeze id =>
    have hid : d ≠ id := (hne _ rfl).symm
    exact ⟨{ h with frozen := by simp [ArbiterCall.next, h.frozen, hid] }, hstays trivial rfl (Or.inl rfl)⟩
  | lockdownSet id => exact ⟨h.setTrust_other (hne _ rfl) _, hstays trivial rfl (Or.inr rfl)⟩
  | restoreThaw id target =>
    have hid : d ≠ id := (hne _ rfl).symm
    exact ⟨{ h with frozen := by simp [ArbiterCall.next, h.frozen, hid] }, hstays trivial rfl (Or.inl rfl)⟩
  | restoreSet id target => exact ⟨h.setTrust_other (hne _ rfl) _, hstays trivial rfl (Or.inl rfl)⟩
  | restoreDetector id =>
    exact ⟨{ h with detectors := h.detectors.remove_other (hne _ rfl) }, hstays trivial rfl (Or.inr rfl)⟩
  | decayList elapsed => cases hother
  | decayGet elapsed id rest decayed =>
    have hid : id ≠ d := hne _ rfl
    unfold ArbiterCall.next
    dsimp only
    cases w.getTrust input id with
    | error e => exact ⟨h, hstays trivial rfl (Or.inr rfl)⟩
    | ok stored =>
      cases stored with
      | none =>
        refine ⟨h, fun own hown => ?_⟩
        rw [own_decayNext] at hown
        obtain ⟨hd, hown⟩ := Option.ite_none_right_eq_some.1 hown
        exact (if_pos (List.mem_cons_of_mem id hd)).trans hown
      | some score =>
        refine ⟨h, fun own hown => ?_⟩
        obtain ⟨hd, hown⟩ := Option.ite_none_right_eq_some.1 ((if_neg hid).symm.trans hown)
        exact (if_pos (List.mem_cons_of_mem id hd)).trans hown
  | decaySet elapsed id score rest decayed =>
    have hid : id ≠ d := hne _ rfl
    unfold ArbiterCall.next
    dsimp only
    split
    · exact ⟨h, hstays trivial rfl (Or.inr rfl)⟩
    · refine ⟨h.setTrust_other hid _, fun own hown => ?_⟩
      rw [own_decayNext] at hown
      exact (if_neg hid).trans hown
  | returned => exact ⟨h, fun own hown => hown⟩

end Step

/-! ## Runs -/

section Run
variable {d : String} {p q : ArbiterPool} {sqrt : ℚ → ℚ}

/-- The second pool is the first as far as the delegator goes: its part of the state, and its calls at their places. -/
structure PartPool (d : String) (p q : ArbiterPool) : Prop where
  shared : Part d p.shared q.shared
  length : q.threads.length = p.threads.length
  threads : ∀ (i : Nat) (call : ArbiterCall), p.threads[i]? = some call →
    call.ListsOnce ∧ ∀ own, call.own d = some own → q.threads[i]? = some own

theorem PartPool.spawn (h : PartPool d p q) {call : ArbiterCall} (hbegins : call.Begins) :
    PartPool d ⟨p.shared, p.threads ++ [call]⟩ ⟨q.shared, q.threads ++ [call]⟩ where
  shared := h.shared
  length := by simp [h.length]
  threads := by
    intro i call' hcall
    rcases Lib.getElem?_concat hcall with hold | ⟨rfl, rfl⟩
    · obtain ⟨honce, hplace⟩ := h.threads i call' hold
      refine ⟨honce, fun own hown => ?_⟩
      have hq := hplace own hown
      exact (List.getElem?_append_left (List.getElem?_eq_some_iff.1 hq).1).trans hq
    · refine ⟨by cases call' <;> trivial, fun own hown => ?_⟩
      have hplain : call'.Plain := by
        cases call' with
        | decayGet elapsed id rest decayed => exact hbegins.elim
        | decaySet elapsed id score rest decayed => exact hbegins.elim
        | _ => trivial
      obtain rfl := ArbiterCall.eq_own hown hplain
      rw [← h.length]
      exact List.getElem?_concat_length

theorem PartPool.set (h : PartPool d p q) {w v : ArbiterState} (hpart : Part d w v) {i : Nat} {call next next' : ArbiterCall}
    (hcall : p.threads[i]? = some call) (honce : next.ListsOnce) (hplace : ∀ own, next.own d = some own → next' = own) :
    PartPool d ⟨w, p.threads.set i next⟩ ⟨v, q.threads.set i next'⟩ where
  shared := hpart
  length := by simp [h.length]
  threads := by
    intro j call' hcall'
    have hi : i < p.threads.length := (List.getElem?_eq_some_iff.1 hcall).1
    by_cases hij : i = j
    · subst hij
      obtain rfl := Option.some.inj ((List.getElem?_set_self hi).symm.trans hcall')
      refine ⟨honce, fun own hown => ?_⟩
      rw [← hplace own hown]
      exact List.getElem?_set_self (h.length ▸ hi)
    · rw [List.getElem?_set_ne hij] at hcall'
      obtain ⟨honce', hplace'⟩ := h.threads j call' hcall'
      exact ⟨honce', fun own hown => (List.getElem?_set_ne hij).trans (hplace' own hown)⟩

theorem PartPool.set_other (h : PartPool d p q) {w : ArbiterState} (hpart : Part d w q.shared) {i : Nat}
    {call next : ArbiterCall} (hcall : p.threads[i]? = some call) (honce : next.ListsOnce)
    (hplace : ∀ own, next.own d = some own → call.own d = some own) : PartPool d ⟨w, p.threads.set i next⟩ q where
  shared := hpart
  length := by simp [h.length]
  threads := by
    intro j call' hcall'
    have hi : i < p.threads.length := (List.getElem?_eq_some_iff.1 hcall).1
    by_cases hij : i = j
    · subst hij
      obtain rfl := Option.some.inj ((List.getElem?_set_self hi).symm.trans hcall')
      exact ⟨honce, fun own hown => (h.threads i call hcall).2 own (hplace own hown)⟩
    · rw [List.getElem?_set_ne hij] at hcall'
      exact h.threads j call' hcall'

theorem Part.setPolicy {w v : ArbiterState} (h : Part d w v) (policy : DynamicPolicy) :
    Part d (ArbiterOp.perform w (.setPolicy policy)).1 (ArbiterOp.perform v (.setPolicy policy)).1 ∧
      heard (ArbiterOp.perform w (.setPolicy policy)).2 = heard (ArbiterOp.perform v (.setPolicy policy)).2 := by
  cases hvalid : policy.validate with
  | error e => simpa only [ArbiterOp.perform, hvalid, and_true] using h
  | ok _ =>
    simp only [ArbiterOp.perform, hvalid, and_true]
    exact { h with policy := rfl }

/-- **An event about the delegator does the same in its own run.** -/
theorem PartPool.keep (h : PartPool d p q) {e : ArbiterEvent} (hbegin : SpawnsBegin e) (hroom : hasRoom d p e = true)
    (hconcerns : Concerns d p e = true) :
    PartPool d ((arbiterMachine sqrt).step p e) ((arbiterMachine sqrt).step q e) ∧
      heard ((arbiterMachine sqrt).out p e) = heard ((arbiterMachine sqrt).out q e) := by
  cases e with
  | spawn call => exact ⟨h.spawn hbegin, rfl⟩
  | step i input =>
    cases hcall : p.threads[i]? with
    | none =>
      simp only [Concerns, hcall] at hconcerns
      cases hconcerns
    | some call =>
      simp only [Concerns, hcall] at hconcerns
      obtain ⟨honce, hplace⟩ := h.threads i call hcall
      obtain ⟨own, hown⟩ := exists_own hconcerns
      have hstep : KeepsPlace d (call.next sqrt input p.shared) (own.next sqrt input q.shared) := by
        refine next_own h.shared honce hconcerns (fun request policy trust scope hdetectors => ?_) hown
        subst hdetectors
        have hid : request.delegator.id = d := Option.some.inj (delegator_of_concerns hconcerns rfl)
        simpa [hasRoom, hcall, hid, Option.isSome_iff_ne_none] using hroom
      rw [(arbiter_step hcall input).1, (arbiter_step hcall input).2, (arbiter_step (hplace own hown) input).1,
        (arbiter_step (hplace own hown) input).2]
      exact ⟨h.set hstep.1 hcall (listsOnce_next honce) hstep.2.1, hstep.2.2⟩
  | env op =>
    have hs := h.shared
    cases op with
    | setPolicy policy => exact ⟨{ h with shared := (hs.setPolicy policy).1 }, (hs.setPolicy policy).2⟩
    | setDomainScope scope => exact ⟨{ h with shared := { hs with domainScope := rfl } }, rfl⟩
    | writeTrust id record =>
      obtain rfl : id = d := beq_iff_eq.1 hconcerns
      cases record with
      | none => exact ⟨{ h with shared := { hs with trustStore := hs.trustStore.remove } }, rfl⟩
      | some record => exact ⟨{ h with shared := { hs with trustStore := hs.trustStore.insert record } }, rfl⟩

/-- **An event about another delegator leaves the own run where it is.** -/
theorem PartPool.drop (h : PartPool d p q) {e : ArbiterEvent} (hother : Concerns d p e = false) :
    PartPool d ((arbiterMachine sqrt).step p e) q := by
  cases e with
  | spawn call => cases hother
  | step i input =>
    cases hcall : p.threads[i]? with
    | none =>
      rw [(arbiter_step_none hcall input).1]
      exact h
    | some call =>
      simp only [Concerns, hcall] at hother
      obtain ⟨hpart, hplace⟩ := next_other sqrt input h.shared hother
      rw [(arbiter_step hcall input).1]
      exact h.set_other hpart hcall (listsOnce_next (h.threads i call hcall).1) hplace
  | env op =>
    have hs := h.shared
    cases op with
    | setPolicy policy => cases hother
    | setDomainScope scope => cases hother
    | writeTrust id record =>
      have hid : id ≠ d := beq_eq_false_iff_ne.1 hother
      cases record with
      | none => exact { h with shared := { hs with trustStore := hs.trustStore.remove_other hid } }
      | some record => exact { h with shared := { hs with trustStore := hs.trustStore.insert_other hid record } }

end Run

/-- **What the others do does not reach a delegator**: in any interleaving, the answers to the steps about a delegator are
those of the run of these steps alone, on the delegator's part of the state, and so is what becomes of its record, its
detector and its freeze; as long as the detectors have room for it. -/
theorem delegators_apart (sqrt : ℚ → ℚ) (d : String) (w : ArbiterState) (es : List ArbiterEvent)
    (hbegin : ∀ e ∈ es, SpawnsBegin e)
    (hroom : (arbiterMachine sqrt).Along (fun p e => hasRoom d p e = true) ⟨w, []⟩ es) :
    let own := (arbiterMachine sqrt).eventsAt (Concerns d) ⟨w, []⟩ es
    ((arbiterMachine sqrt).outsAt (Concerns d) ⟨w, []⟩ es).map heard =
        ((arbiterMachine sqrt).outs ⟨w.only d, []⟩ own).map heard ∧
      Part d ((arbiterMachine sqrt).run ⟨w, []⟩ es).shared ((arbiterMachine sqrt).run ⟨w.only d, []⟩ own).shared := by
  intro own
  have hrun := (arbiterMachine sqrt).outsAt_eq_outs heard (Concerns d) (fun p e => hasRoom d p e = true ∧ SpawnsBegin e)
    (PartPool d) (fun p q e h hfits hkeep => h.keep hfits.2 hfits.1 hkeep) (fun p q e h _ hdrop => h.drop hdrop)
    ⟨w, []⟩ ⟨w.only d, []⟩ es ⟨part_only w d, rfl, fun i call hcall => by cases hcall⟩
    (Machine.along_and _ _ _ _ es hroom hbegin)
  exact ⟨hrun.1, hrun.2.shared⟩

/-- Another delegator fails and is decayed first, then the agent is decayed and asks for the pump. -/
def neighbourRun : List ArbiterEvent :=
  [.spawn (.feedbackGet "agent-8" (.failure "timeout")), .step 0 ⟨1, false, []⟩, .step 0 ⟨2, false, []⟩,
    .spawn (.decayList ⟨10 ^ 12⟩), .step 1 ⟨3, false, ["agent-8", "agent-7"]⟩, .step 1 ⟨4, false, []⟩,
    .step 1 ⟨5, false, []⟩, .step 1 ⟨6, false, []⟩, .step 1 ⟨7, false, []⟩, .spawn (.authorizeFrozen pumpRequest),
    .step 2 ⟨8, false, []⟩, .step 2 ⟨9, false, []⟩, .step 2 ⟨10, false, []⟩, .step 2 ⟨11, false, []⟩,
    .step 2 ⟨12, false, []⟩, .step 2 ⟨13, false, []⟩]

theorem delegators_apart_pump :
    let own := (arbiterMachine id).eventsAt (Concerns "agent-7") ⟨approvingState, []⟩ neighbourRun
    own.length + 4 = neighbourRun.length ∧
      ((arbiterMachine id).outsAt (Concerns "agent-7") ⟨approvingState, []⟩ neighbourRun).map heard =
        ((arbiterMachine id).outs ⟨approvingState.only "agent-7", []⟩ own).map heard :=
  ⟨by decide +kernel, (delegators_apart id "agent-7" approvingState neighbourRun
    (by simp [neighbourRun, SpawnsBegin, ArbiterCall.Begins]) (by decide +kernel)).1⟩

end Dynamic
end Rbac
end Kirino
