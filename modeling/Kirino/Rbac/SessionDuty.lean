import Mathlib.Tactic.IntervalCases
import Kirino.Rbac.SessionManager
import Kirino.Rbac.Store.Memory
/-!
# SessionDuty — dynamic separation of duty in every run (`rbac/session/mod.rs`)

The policies are fixed, while the stores may fail and the assignments change between any two steps.  Every stored session
passes every policy, in every run.  That each of its roles was assigned when it was activated (`RolesAssigned`) is not so:
a call reads the roles first and inserts later, and a revocation in between is not seen (`unassigned_of_race`).  It holds
where no revocation meets a call in flight that carries the role (`SparesCalls`): such a call's roles stay assigned
from its reading on (`CallFacts`), and so does the record of each activation (`Activation`).
-/
namespace Kirino
namespace Rbac

open Lib (HashMap Machine Pool PoolEvent Program PoolInv)

section Definitions
variable {A C U S P E : Type} [AssignmentStore A S P E] [ConstraintStore C E] [Subject S] [DecidableEq U]

/-- The store answers the subject's roles, the role among them. -/
def AnswersWith (store : A) (subject : S) (roleName : String) : Prop :=
  ∃ roles, rolesOf store subject = .ok roles ∧ roleName ∈ roles

/-- The store answers the subject's roles, the role not among them. -/
def AnswersWithout (store : A) (subject : S) (roleName : String) : Prop :=
  ∃ roles, rolesOf store subject = .ok roles ∧ roleName ∉ roles

/-- The call carries the role of the subject: it has read that it is assigned, and puts it into a session later. -/
def SessionCall.CarriesRole (subject : S) (roleName : String) : SessionCall U S → Prop
  | .createConstraints s active _ => s = subject ∧ roleName ∈ active
  | .createVersion s active _ => s = subject ∧ roleName ∈ active
  | .createInsert s => s.subject = subject ∧ roleName ∈ s.activeRoles
  | .activateConstraints s r => s.subject = subject ∧ r = roleName
  | _ => False

/-- The call puts the role into the session of this identifier next, if it gets through. -/
def SessionCall.Activates (id : U) (roleName : String) : SessionCall U S → Prop
  | .createInsert session => session.id = id ∧ roleName ∈ session.activeRoles
  | .activateRoles session r => session.id = id ∧ r = roleName
  | .activateConstraints session r => session.id = id ∧ r = roleName
  | _ => False

/-- The assignments do not come to lack a role that a call in flight carries. -/
def SparesCalls (p : SessionPool A C U S) : SessionEvent A C U S → Prop
  | .env (.assignments store) => ∀ (i : Nat) (call : SessionCall U S) subject roleName, p.threads[i]? = some call →
      call.CarriesRole subject roleName → ¬ AnswersWithout store subject roleName
  | _ => True

variable (p₀ : SessionPool A C U S)

/-- **The role is assigned after the events**: the store once answers with it, and from then on never without it.  While
the store fails, its last answer stands. -/
def AssignedAfter (es : List (SessionEvent A C U S)) (subject : S) (roleName : String) : Prop :=
  ∃ j, j ≤ es.length ∧ AnswersWith (sessionMachine.run p₀ (es.take j)).shared.assignmentStore subject roleName ∧
    ∀ m, j ≤ m → m ≤ es.length →
      ¬ AnswersWithout (sessionMachine.run p₀ (es.take m)).shared.assignmentStore subject roleName

/-- **The activation of a role on record**: the `k`-th event is the step of call `i` that activates the role in the
session, the role is assigned to the session's subject at that step, and active since. -/
structure Activation (es : List (SessionEvent A C U S)) (id : U) (subject : S) (roleName : String) (i k : Nat) : Prop where
  step : ∃ input call, es[k]? = some (.step i input) ∧
    (sessionMachine.run p₀ (es.take k)).threads[i]? = some call ∧ call.Activates id roleName
  assigned : AssignedAfter p₀ (es.take k) subject roleName
  since : ∀ m, k < m → m ≤ es.length → ∃ s, (sessionMachine.run p₀ (es.take m)).shared.sessions.get? id = some s ∧
    s.subject = subject ∧ roleName ∈ s.activeRoles

/-- **Each role of a stored session was assigned when it was activated.** -/
def RolesAssigned (es : List (SessionEvent A C U S)) : Prop :=
  ∀ id s, (sessionMachine.run p₀ es).shared.sessions.get? id = some s → ∀ r ∈ s.activeRoles, ∃ i k,
    Activation p₀ es id s.subject r i k

/-- Every session of the map passes the policies, and where the calls were spared each of its roles has an activation on
record. -/
def SessionsBacked (policies : List DsdPolicy) (es : List (SessionEvent A C U S)) (m : HashMap U (RbacSession U S)) :
    Prop :=
  ∀ id s, m.get? id = some s → s.id = id ∧ PassesAll policies s.activeRoles ∧
    (sessionMachine.Along SparesCalls p₀ es → ∀ r ∈ s.activeRoles, ∃ i k, Activation p₀ es id s.subject r i k)

/-- The store lists these policies, or fails. -/
def ListsOnly (policies : List DsdPolicy) (constraintStore : C) : Prop :=
  ∀ listed, listDsdPolicies constraintStore = .ok listed → listed = policies

/-- The manager's own state: it is wired to a store of these policies, and its sessions are backed. -/
def ManagerFacts (policies : List DsdPolicy) (es : List (SessionEvent A C U S)) (w : SessionState A C U S) : Prop :=
  (∃ cs, w.constraintStore = some cs ∧ ListsOnly policies cs) ∧ SessionsBacked p₀ policies es w.sessions

/-- What a call in flight has checked of the policies, and what the lock keeps for it. -/
def SessionCall.Checked (policies : List DsdPolicy) (i : Nat) (w : SessionState A C U S) : SessionCall U S → Prop
  | .createVersion _ active _ => PassesAll policies active
  | .createInsert s => PassesAll policies s.activeRoles
  | .activateRoles s _ => w.lock = some i ∧ w.sessions.get? s.id = some s
  | .activateConstraints s _ => w.lock = some i ∧ w.sessions.get? s.id = some s
  | _ => True

/-- What a call in flight has established: its checks, and, where the calls were spared, that the roles it carries are
assigned. -/
structure CallFacts (policies : List DsdPolicy) (es : List (SessionEvent A C U S)) (i : Nat) (w : SessionState A C U S)
    (call : SessionCall U S) : Prop where
  checked : call.Checked policies i w
  assigned : sessionMachine.Along SparesCalls p₀ es → ∀ subject roleName, call.CarriesRole subject roleName →
    AssignedAfter p₀ es subject roleName

/-- The policies stay fixed, and calls start at their beginning. -/
def FixedPolicies (policies : List DsdPolicy) : SessionEvent A C U S → Prop
  | .spawn call => call.Starts
  | .step _ _ => True
  | .env (.constraints cs) => ListsOnly policies cs
  | .env _ => True

end Definitions

theorem AnswersWith.not_without {A S P E : Type} [AssignmentStore A S P E] {store : A} {subject : S} {roleName : String}
    (h : AnswersWith store subject roleName) : ¬ AnswersWithout store subject roleName := by
  obtain ⟨roles, hroles, hr⟩ := h
  rintro ⟨roles', hroles', hr'⟩
  obtain rfl := Except.ok.inj (hroles.symm.trans hroles')
  exact hr' hr

section Assignments
variable {A C U S P E : Type} [AssignmentStore A S P E] [ConstraintStore C E] [Subject S] [DecidableEq U]
variable {p₀ p : SessionPool A C U S} {es : List (SessionEvent A C U S)} {e : SessionEvent A C U S} {subject : S}
  {roleName : String}

theorem assignmentStore_step (i : Nat) (input : StepInput U) :
    (sessionMachine.step p (.step i input)).shared.assignmentStore = p.shared.assignmentStore := by
  cases hcall : p.threads[i]? with
  | none => exact congrArg (fun q => q.shared.assignmentStore) (sessionProgram.machine_step_none hcall input).1
  | some call =>
    refine (congrArg (fun q => q.shared.assignmentStore) (sessionProgram.machine_step hcall input).1).trans ?_
    exact (next_effect i input p.shared call).frame.1

/-- **A spared call's role stays assigned.** -/
theorem not_answersWithout_step {i : Nat} {call : SessionCall U S} (hspares : SparesCalls p e)
    (hcall : p.threads[i]? = some call) (hr : call.CarriesRole subject roleName)
    (h : ¬ AnswersWithout p.shared.assignmentStore subject roleName) :
    ¬ AnswersWithout (sessionMachine.step p e).shared.assignmentStore subject roleName := by
  cases e with
  | spawn call => exact h
  | step i input =>
    rw [assignmentStore_step]
    exact h
  | env op =>
    have hstore : (sessionMachine.step p (.env op)).shared.assignmentStore = _ := (op_frame E op p.shared).1
    rw [hstore]
    cases op with
    | assignments store => exact hspares i call subject roleName hcall hr
    | _ => exact h

theorem run_concat (p₀ : SessionPool A C U S) (es : List (SessionEvent A C U S)) (e : SessionEvent A C U S) :
    sessionMachine.run p₀ (es ++ [e]) = sessionMachine.step (sessionMachine.run p₀ es) e := by
  rw [Machine.run_append]
  rfl

theorem assignedAfter_of_answers (h : AnswersWith (sessionMachine.run p₀ es).shared.assignmentStore subject roleName) :
    AssignedAfter p₀ es subject roleName := by
  refine ⟨es.length, Nat.le_refl _, by rwa [List.take_length], fun m hle hm => ?_⟩
  obtain rfl : m = es.length := Nat.le_antisymm hm hle
  rw [List.take_length]
  exact h.not_without

theorem AssignedAfter.not_without (h : AssignedAfter p₀ es subject roleName) :
    ¬ AnswersWithout (sessionMachine.run p₀ es).shared.assignmentStore subject roleName := by
  obtain ⟨j, hj, -, hstays⟩ := h
  have hlast := hstays es.length hj (Nat.le_refl _)
  rwa [List.take_length] at hlast

theorem AssignedAfter.append (h : AssignedAfter p₀ es subject roleName)
    (hnow : ¬ AnswersWithout (sessionMachine.run p₀ (es ++ [e])).shared.assignmentStore subject roleName) :
    AssignedAfter p₀ (es ++ [e]) subject roleName := by
  obtain ⟨j, hj, hanswers, hstays⟩ := h
  refine ⟨j, by rw [List.length_append]; omega, by rwa [List.take_append_of_le_length hj], fun m hjm hm => ?_⟩
  rw [List.length_append, List.length_singleton] at hm
  by_cases hlast : m ≤ es.length
  · rw [List.take_append_of_le_length hlast]
    exact hstays m hjm hlast
  · rw [List.take_of_length_le (by rw [List.length_append, List.length_singleton]; omega)]
    exact hnow

/-- **The roles a call carries next**: it carried them, or the store answers with them. -/
theorem carriesRole_next (i : Nat) (input : StepInput U) (w : SessionState A C U S) (call : SessionCall U S)
    (h : (call.next i input w).2.1.CarriesRole subject roleName) :
    call.CarriesRole subject roleName ∨ AnswersWith w.assignmentStore subject roleName := by
  have hgoes := next_goesOn i input w call
  generalize (call.next i input w).1 = w', (call.next i input w).2.1 = call' at h hgoes
  cases hgoes with
  | returned => exact h.elim
  | waits => exact Or.inl h
  | toConstraints s requested ttl roles hroles =>
    obtain ⟨rfl, hr⟩ := h
    exact Or.inr ⟨roles, hroles, (Finset.mem_filter.1 hr).2⟩
  | toVersion s requested ttl roles hroles =>
    obtain ⟨rfl, hr⟩ := h
    exact Or.inr ⟨roles, hroles, (Finset.mem_filter.1 hr).2⟩
  | validated => exact Or.inl h
  | stamped => exact Or.inl h
  | found => exact h.elim
  | assigned session r roles hroles hr =>
    obtain ⟨rfl, rfl⟩ := h
    exact Or.inr ⟨roles, hroles, hr⟩

end Assignments

section History
variable {A C U S P E : Type} [AssignmentStore A S P E] [ConstraintStore C E] [Subject S] [DecidableEq U]
variable {p₀ : SessionPool A C U S} {es : List (SessionEvent A C U S)}

theorem along_concat {e : SessionEvent A C U S} (h : sessionMachine.Along SparesCalls p₀ (es ++ [e])) :
    sessionMachine.Along SparesCalls p₀ es ∧ SparesCalls (sessionMachine.run p₀ es) e := by
  rw [Machine.along_append] at h
  exact ⟨h.1, h.2.1⟩

theorem Activation.append {id : U} {subject : S} {r : String} {i k : Nat} (h : Activation p₀ es id subject r i k)
    {e : SessionEvent A C U S}
    (hstill : ∃ s, (sessionMachine.run p₀ (es ++ [e])).shared.sessions.get? id = some s ∧ s.subject = subject ∧
      r ∈ s.activeRoles) : Activation p₀ (es ++ [e]) id subject r i k := by
  obtain ⟨input, call, hk, hcall⟩ := h.step
  have hlt : k < es.length := (List.getElem?_eq_some_iff.1 hk).1
  have hbefore : (es ++ [e]).take k = es.take k := List.take_append_of_le_length (Nat.le_of_lt hlt)
  refine ⟨⟨input, call, ?_, ?_⟩, ?_, fun m hkm hm => ?_⟩
  · rw [List.getElem?_append_left hlt]
    exact hk
  · rw [hbefore]
    exact hcall
  · rw [hbefore]
    exact h.assigned
  · rw [List.length_append, List.length_singleton] at hm
    by_cases hlast : m ≤ es.length
    · rw [List.take_append_of_le_length hlast]
      exact h.since m hkm hlast
    · have hall : (es ++ [e]).take m = es ++ [e] := List.take_of_length_le (by simp; omega)
      rw [hall]
      exact hstill

theorem activation_of_step {id : U} {subject : S} {r : String} {i : Nat} {input : StepInput U} {call : SessionCall U S}
    (hcall : (sessionMachine.run p₀ es).threads[i]? = some call) (hact : call.Activates id r)
    (hassigned : AssignedAfter p₀ es subject r)
    (hnow : ∃ s, (sessionMachine.run p₀ (es ++ [.step i input])).shared.sessions.get? id = some s ∧
      s.subject = subject ∧ r ∈ s.activeRoles) :
    Activation p₀ (es ++ [.step i input]) id subject r i es.length := by
  refine ⟨⟨input, call, by simp, by simpa using ⟨hcall, hact⟩⟩, by rwa [List.take_left], fun m hkm hm => ?_⟩
  have hall : (es ++ [PoolEvent.step i input]).take m = es ++ [.step i input] := List.take_of_length_le (by simp; omega)
  rw [hall]
  exact hnow

/-- The session after the event passes the policies, and each of its roles was active in it before or is activated by
the event, assigned where the calls were spared. -/
def Accounted (p₀ : SessionPool A C U S) (policies : List DsdPolicy) (es : List (SessionEvent A C U S))
    (m : HashMap U (RbacSession U S)) (e : SessionEvent A C U S) (id : U) (s' : RbacSession U S) : Prop :=
  s'.id = id ∧ PassesAll policies s'.activeRoles ∧ ∀ r ∈ s'.activeRoles,
    (∃ s, m.get? id = some s ∧ s.subject = s'.subject ∧ r ∈ s.activeRoles) ∨
    ∃ i input call, e = .step i input ∧ (sessionMachine.run p₀ es).threads[i]? = some call ∧
      call.Activates id r ∧ (sessionMachine.Along SparesCalls p₀ es → AssignedAfter p₀ es s'.subject r)

theorem accounted_of_stored {policies : List DsdPolicy} {m : HashMap U (RbacSession U S)}
    (h : SessionsBacked p₀ policies es m) (e : SessionEvent A C U S) {id : U} {s : RbacSession U S}
    (hs : m.get? id = some s) : Accounted p₀ policies es m e id s :=
  ⟨(h id s hs).1, (h id s hs).2.1, fun _ hr => Or.inl ⟨s, hs, rfl, hr⟩⟩

/-- **What keeps the sessions backed**: every role of a session after the event was active in it before, or the event
is the step that activates it. -/
theorem sessionsBacked_append {policies : List DsdPolicy} {m : HashMap U (RbacSession U S)}
    (h : SessionsBacked p₀ policies es m) {e : SessionEvent A C U S}
    (hafter : ∀ id s', (sessionMachine.run p₀ (es ++ [e])).shared.sessions.get? id = some s' →
      Accounted p₀ policies es m e id s') :
    SessionsBacked p₀ policies (es ++ [e]) (sessionMachine.run p₀ (es ++ [e])).shared.sessions := by
  intro id s' hs'
  obtain ⟨hid, hpass, hroles⟩ := hafter id s' hs'
  refine ⟨hid, hpass, fun hspared r hr => ?_⟩
  obtain ⟨hbefore, -⟩ := along_concat hspared
  rcases hroles r hr with ⟨s, hs, hsubject, hrs⟩ | ⟨i, input, call, rfl, hcall, hact, hassigned⟩
  · obtain ⟨i, k, hik⟩ := (h id s hs).2.2 hbefore r hrs
    exact ⟨i, k, Activation.append (hsubject ▸ hik) ⟨s', hs', rfl, hr⟩⟩
  · exact ⟨i, es.length, activation_of_step hcall hact (hassigned hbefore) ⟨s', hs', rfl, hr⟩⟩

/-- **The other events leave a call's facts alone.** -/
theorem CallFacts.append {policies : List DsdPolicy} {i : Nat} {w' : SessionState A C U S} {call : SessionCall U S}
    (h : CallFacts p₀ policies es i (sessionMachine.run p₀ es).shared call)
    (hcall : (sessionMachine.run p₀ es).threads[i]? = some call) (e : SessionEvent A C U S)
    (hkeep : (sessionMachine.run p₀ es).shared.lock = some i → call.Holds →
      w'.lock = (sessionMachine.run p₀ es).shared.lock ∧ w'.sessions = (sessionMachine.run p₀ es).shared.sessions) :
    CallFacts p₀ policies (es ++ [e]) i w' call where
  checked := by
    have hchecked := h.checked
    cases call with
    | activateRoles s r =>
      obtain ⟨hlock, hsessions⟩ := hkeep hchecked.1 trivial
      exact ⟨hlock.trans hchecked.1, hsessions ▸ hchecked.2⟩
    | activateConstraints s r =>
      obtain ⟨hlock, hsessions⟩ := hkeep hchecked.1 trivial
      exact ⟨hlock.trans hchecked.1, hsessions ▸ hchecked.2⟩
    | _ => exact hchecked
  assigned hspared subject r hr := by
    obtain ⟨hspared, hlast⟩ := along_concat hspared
    have hassigned := h.assigned hspared subject r hr
    refine hassigned.append ?_
    rw [run_concat]
    exact not_answersWithout_step hlast hcall hr hassigned.not_without

/-- **A call's own step makes the checks its next place asks for.** -/
theorem checked_next {policies : List DsdPolicy} {i : Nat} {call : SessionCall U S} (input : StepInput U)
    {w : SessionState A C U S} (hw : ManagerFacts p₀ policies es w) (h : call.Checked policies i w) :
    (call.next i input w).2.1.Checked policies i (call.next i input w).1 := by
  obtain ⟨⟨cs, hcs, hlists⟩, hbacked⟩ := hw
  have hgoes := next_goesOn i input w call
  generalize (call.next i input w).1 = w', (call.next i input w).2.1 = call' at hgoes ⊢
  cases hgoes with
  | returned => trivial
  | waits => exact h
  | toConstraints => trivial
  | toVersion s requested ttl roles hroles unwired => cases hcs.symm.trans unwired
  | validated s active ttl valid =>
    obtain ⟨listed, hlisted, hpass⟩ := passesAll_of_validateDsd (valid cs hcs)
    rw [hlists listed hlisted] at hpass
    exact hpass
  | stamped => exact h
  | found sessionId r s _ hget =>
    refine ⟨rfl, ?_⟩
    rw [(hbacked sessionId s hget).1]
    exact hget
  | assigned => exact h

/-- **A call's own step establishes what its next place asks for.** -/
theorem callFacts_next {policies : List DsdPolicy} {i : Nat} {call : SessionCall U S} (input : StepInput U)
    (hw : ManagerFacts p₀ policies es (sessionMachine.run p₀ es).shared)
    (h : CallFacts p₀ policies es i (sessionMachine.run p₀ es).shared call) :
    CallFacts p₀ policies (es ++ [.step i input]) i (call.next i input (sessionMachine.run p₀ es).shared).1
      (call.next i input (sessionMachine.run p₀ es).shared).2.1 where
  checked := checked_next input hw h.checked
  assigned hspared subject r hr := by
    have hassigned : AssignedAfter p₀ es subject r := by
      rcases carriesRole_next i input _ call hr with hcarried | hanswers
      · exact h.assigned (along_concat hspared).1 subject r hcarried
      · exact assignedAfter_of_answers hanswers
    refine hassigned.append ?_
    rw [run_concat, assignmentStore_step]
    exact hassigned.not_without

/-- **A call's own step keeps the sessions backed.** -/
theorem sessionsBacked_next {policies : List DsdPolicy} {i : Nat} {call : SessionCall U S} (input : StepInput U)
    (hcall : (sessionMachine.run p₀ es).threads[i]? = some call)
    (hw : ManagerFacts p₀ policies es (sessionMachine.run p₀ es).shared)
    (h : CallFacts p₀ policies es i (sessionMachine.run p₀ es).shared call) :
    SessionsBacked p₀ policies (es ++ [.step i input]) (call.next i input (sessionMachine.run p₀ es).shared).1.sessions := by
  have hrun : (sessionMachine.run p₀ (es ++ [.step i input])).shared =
      (call.next i input (sessionMachine.run p₀ es).shared).1 := by
    rw [run_concat]
    exact congrArg Pool.shared (sessionProgram.machine_step hcall input).1
  obtain ⟨⟨cs, hcs, hlists⟩, hbacked⟩ := hw
  rw [← hrun]
  refine sessionsBacked_append hbacked ?_
  rw [hrun]
  have hsame : ∀ id s, (sessionMachine.run p₀ es).shared.sessions.get? id = some s →
      Accounted p₀ policies es (sessionMachine.run p₀ es).shared.sessions (.step i input) id s :=
    fun _ _ hs => accounted_of_stored hbacked _ hs
  have heffect := next_effect i input (sessionMachine.run p₀ es).shared call
  generalize call.next i input (sessionMachine.run p₀ es).shared = result at heffect
  obtain ⟨w', call', answer⟩ := result
  cases heffect with
  | quiet => exact hsame
  | locked => exact hsame
  | unlocked => exact hsame
  | inserted s hcreate =>
    subst hcreate
    intro id s' hs'
    dsimp only at hs'
    rw [HashMap.get?_insert] at hs'
    split at hs'
    · rename_i hid
      obtain rfl := Option.some.inj hs'
      exact ⟨hid.symm, h.checked, fun r hr => Or.inr ⟨i, input, _, rfl, hcall, ⟨hid.symm, hr⟩,
        fun hspared => h.assigned hspared _ r ⟨rfl, hr⟩⟩⟩
    · exact hsame id s' hs'
  | activated s r adds assigned valid =>
    obtain ⟨listed, hlisted, hpass⟩ := passesAll_of_validateDsd (valid cs hcs)
    rw [hlists listed hlisted] at hpass
    have hfacts : (sessionMachine.run p₀ es).shared.sessions.get? s.id = some s ∧ call.Activates s.id r ∧
        (sessionMachine.Along SparesCalls p₀ es → AssignedAfter p₀ es s.subject r) := by
      rcases adds.eq with rfl | rfl
      · exact ⟨h.checked.2, ⟨rfl, rfl⟩, fun _ => assignedAfter_of_answers (assigned rfl)⟩
      · exact ⟨h.checked.2, ⟨rfl, rfl⟩, fun hspared => h.assigned hspared _ r ⟨rfl, rfl⟩⟩
    obtain ⟨hstored, hact, hassigned⟩ := hfacts
    intro id s' hs'
    dsimp only [SessionState.activate] at hs'
    rw [HashMap.get?_insert] at hs'
    split at hs'
    · rename_i hid
      obtain rfl := Option.some.inj hs'
      refine ⟨hid.symm, hpass, fun r' hr' => ?_⟩
      rcases Finset.mem_insert.1 hr' with rfl | hr'
      · exact Or.inr ⟨i, input, call, rfl, hcall, hid ▸ hact, hassigned⟩
      · exact Or.inl ⟨s, hid ▸ hstored, rfl, hr'⟩
    · exact hsame id s' hs'

theorem sessionsBacked_shrinks {policies : List DsdPolicy}
    (h : SessionsBacked p₀ policies es (sessionMachine.run p₀ es).shared.sessions) (e : SessionEvent A C U S)
    (hshrinks : Shrinks (sessionMachine.run p₀ es).shared.sessions
      (sessionMachine.step (sessionMachine.run p₀ es) e).shared.sessions) :
    SessionsBacked p₀ policies (es ++ [e]) (sessionMachine.step (sessionMachine.run p₀ es) e).shared.sessions := by
  rw [← run_concat] at hshrinks ⊢
  refine sessionsBacked_append h (fun id s' hs' => ?_)
  obtain ⟨s, hs, hroles, hid, hsubject, -⟩ := hshrinks id s' hs'
  obtain ⟨hid', hpass, -⟩ := h id s hs
  exact ⟨hid.trans hid', passesAll_anti hroles hpass, fun r hr => Or.inl ⟨s, hs, hsubject.symm, hroles hr⟩⟩

/-- **The facts hold after every event.** -/
theorem facts_step {policies : List DsdPolicy} (e : SessionEvent A C U S)
    (h : PoolInv (ManagerFacts p₀ policies es) (CallFacts p₀ policies es) (sessionMachine.run p₀ es))
    (he : FixedPolicies policies e) :
    PoolInv (ManagerFacts p₀ policies (es ++ [e])) (CallFacts p₀ policies (es ++ [e]))
      (sessionMachine.step (sessionMachine.run p₀ es) e) := by
  have hstore := h.1.1
  have hbacked := h.1.2
  -- each call's facts, with the place it stands at
  have hplaced : PoolInv (ManagerFacts p₀ policies es) (fun i w call => (sessionMachine.run p₀ es).threads[i]? = some call ∧
      CallFacts p₀ policies es i w call) (sessionMachine.run p₀ es) := ⟨h.1, fun i call hcall => ⟨hcall, h.2 i call hcall⟩⟩
  refine Lib.PoolInv.step hplaced e ?_ ?_ ?_ ?_
  · rintro call rfl
    refine ⟨⟨hstore, sessionsBacked_shrinks hbacked (.spawn call) (Shrinks.refl _)⟩, ?_,
      fun j t' ⟨ht', hfacts⟩ => hfacts.append ht' _ (fun _ _ => ⟨rfl, rfl⟩)⟩
    cases call with
    | createRoles s requested ttl => exact ⟨trivial, nofun⟩
    | activateLookup id r => exact ⟨trivial, nofun⟩
    | _ => exact he.elim
  · rintro i input call rfl hcall ⟨-, hfacts⟩
    have heffect := next_effect i input (sessionMachine.run p₀ es).shared call
    refine ⟨⟨?_, sessionsBacked_next input hcall ⟨hstore, hbacked⟩ hfacts⟩,
      callFacts_next input ⟨hstore, hbacked⟩ hfacts, fun j t' hji ht' ⟨_, hfacts'⟩ => ?_⟩
    · obtain ⟨cs, hcs, hlists⟩ := hstore
      exact ⟨cs, heffect.frame.2.1.trans hcs, hlists⟩
    · refine hfacts'.append ht' _ (fun hlock _ => ?_)
      have hcall' : ¬ call.Holds := by
        intro hholds
        have hown : (sessionMachine.run p₀ es).shared.lock = some i := by
          cases call with
          | activateRoles s r => exact hfacts.checked.1
          | activateConstraints s r => exact hfacts.checked.1
          | _ => exact hholds.elim
        exact hji (Option.some.inj (hlock.symm.trans hown))
      have hsame := heffect.of_locked (by rw [hlock]; exact Option.some_ne_none j) hcall'
      exact ⟨congrArg SessionState.lock hsame, congrArg SessionState.sessions hsame⟩
  · rintro i input rfl hnone
    have hstep : sessionMachine.step (sessionMachine.run p₀ es) (.step i input) = sessionMachine.run p₀ es :=
      (sessionProgram.machine_step_none hnone input).1
    have hback := sessionsBacked_shrinks hbacked (.step i input) (by rw [hstep]; exact Shrinks.refl _)
    rw [hstep] at hback
    exact ⟨⟨hstore, hback⟩, fun j t' ⟨ht', hfacts⟩ => hfacts.append ht' _ (fun _ _ => ⟨rfl, rfl⟩)⟩
  · rintro op rfl
    refine ⟨⟨?_, sessionsBacked_shrinks hbacked (.env op) (op_shrinks E op _)⟩, fun j t' ht' ⟨_, hfacts⟩ => ?_⟩
    · obtain ⟨cs, hcs, hlists⟩ := hstore
      have hframe := (op_frame E op (sessionMachine.run p₀ es).shared).2.1
      cases op with
      | constraints cs' => exact ⟨cs', hframe.trans (by rw [hcs]; rfl), he⟩
      | _ => exact ⟨cs, hframe.trans hcs, hlists⟩
    · refine hfacts.append ht' _ (fun hlock _ => ?_)
      obtain ⟨hlock', hsessions⟩ := op_locked E op (sessionMachine.run p₀ es).shared
      exact ⟨hlock', hsessions (by rw [hlock]; exact Option.some_ne_none j)⟩

end History

section Answers
variable {A C U S P E : Type} [AssignmentStore A S P E] [ConstraintStore C E] [Subject S] [DecidableEq U]

/-- **An event that answers no success leaves the sessions as they are.** -/
theorem sessions_eq_of_not_ok {p : SessionPool A C U S} {e : SessionEvent A C U S}
    (hok : ∀ reply, sessionMachine.out p e ≠ some (.ok reply)) :
    (sessionMachine.step p e).shared.sessions = p.shared.sessions := by
  cases e with
  | spawn call => rfl
  | step i input =>
    cases hcall : p.threads[i]? with
    | none => exact congrArg (fun q => q.shared.sessions) (sessionProgram.machine_step_none hcall input).1
    | some call =>
      obtain ⟨hstep, hout⟩ := sessionProgram.machine_step hcall input
      refine (congrArg (fun q => q.shared.sessions) hstep).trans ?_
      refine (next_effect i input p.shared call).sessions_eq (fun reply hreply => ?_)
      exact hok reply (hout.trans hreply)
  | env op => exact op_sessions_eq hok

end Answers

section Main
variable {A C U S P E : Type} [AssignmentStore A S P E] [ConstraintStore C E] [Subject S] [DecidableEq U]

/-- **Separation of duty in every run.**  With the policies fixed, every stored session passes every policy; each of its
roles was assigned when it was activated, in every run that spares the calls in flight; and an event that answers no
success leaves the sessions as they are. -/
theorem dsd_invariant (policies : List DsdPolicy) (store : A) (constraintStore : C)
    (hlists : ListsOnly policies constraintStore) (es : List (SessionEvent A C U S))
    (hes : ∀ e ∈ es, FixedPolicies policies e) :
    (∀ id s, (sessionMachine.run (freshManager store (some constraintStore)) es).shared.sessions.get? id = some s →
      PassesAll policies s.activeRoles) ∧
    (sessionMachine.Along SparesCalls (freshManager store (some constraintStore)) es →
      RolesAssigned (freshManager store (some constraintStore)) es) ∧
    ∀ n e, es[n]? = some e →
      (∀ reply, sessionMachine.out (sessionMachine.run (freshManager store (some constraintStore)) (es.take n)) e ≠
        some (.ok reply)) →
      (sessionMachine.step (sessionMachine.run (freshManager store (some constraintStore)) (es.take n)) e).shared.sessions =
        (sessionMachine.run (freshManager store (some constraintStore)) (es.take n)).shared.sessions := by
  have hrun := sessionMachine.run_history (fun _ e => FixedPolicies policies e)
    (fun es p => PoolInv (ManagerFacts (freshManager store (some constraintStore)) policies es)
      (CallFacts (freshManager store (some constraintStore)) policies es) p)
    (freshManager store (some constraintStore))
    (PoolInv.empty _ ⟨⟨constraintStore, rfl, hlists⟩, fun id s hs => by cases hs⟩)
    (fun es e h he => facts_step e h he) es (sessionMachine.along_of_forall _ _ _ (fun _ e he => hes e he))
  exact ⟨fun id s hs => (hrun.1.2 id s hs).2.1, fun hspared id s hs => (hrun.1.2 id s hs).2.2 hspared,
    fun n e _ hok => sessions_eq_of_not_ok hok⟩

/-- **A revocation that meets a creation about to insert leaves the role**: one step later a stored session has it
active, while the store answers without it. -/
theorem unassigned_of_race {p : SessionPool A C U S} {i : Nat} {s : RbacSession U S} {roleName : String} {store : A}
    (hfree : p.shared.lock = none) (hcall : p.threads[i]? = some (.createInsert s)) (hr : roleName ∈ s.activeRoles)
    (hrevoked : AnswersWithout store s.subject roleName) (input : StepInput U) :
    let p' := sessionMachine.run p [.env (.assignments store), .step i input]
    p'.shared.sessions.get? s.id = some s ∧ roleName ∈ s.activeRoles ∧
      AnswersWithout p'.shared.assignmentStore s.subject roleName := by
  let w : SessionState A C U S := { p.shared with assignmentStore := store }
  have hinsert : createInsertStep (E := E) w s =
      ({ w with sessions := w.sessions.insert s.id s }, .returned, some (.ok (.created s))) := by
    have hlock : w.lock.isSome = false := by
      have hnone : w.lock = none := hfree
      rw [hnone]
      rfl
    unfold createInsertStep
    rw [hlock]
    rfl
  have hstep : (sessionMachine.step ⟨w, p.threads⟩ (.step i input)).shared =
      { w with sessions := w.sessions.insert s.id s } :=
    (congrArg Pool.shared (sessionProgram.machine_step (p := ⟨w, p.threads⟩) hcall input).1).trans
      (congrArg Prod.fst hinsert)
  have hrun : sessionMachine.run p [.env (.assignments store), .step i input] =
      sessionMachine.step ⟨w, p.threads⟩ (.step i input) := rfl
  dsimp only
  rw [hrun, hstep]
  exact ⟨HashMap.get?_insert_self _ _ _, hr, hrevoked⟩

end Main

/-! ## Two runs: a revocation within a creation, and after it -/

def auditPolicies : List DsdPolicy := [SodPolicy.new "audit" {"auditor", "operator"} 2]

def auditStore : InMemoryAssignmentStore String TestPerm :=
  (InMemoryAssignmentStore.new.assignRole "alice" "auditor").assignRole "alice" "operator"

/-- A creation, an activation the policy refuses, and the revocation of the role that is active. -/
def auditRun : List (SessionEvent (InMemoryAssignmentStore String TestPerm) InMemoryConstraintStore Nat String) :=
  [.spawn (.createRoles "alice" {"auditor"} 60), .step 0 ⟨0, 0⟩, .step 0 ⟨0, 0⟩, .step 0 ⟨0, 7⟩, .step 0 ⟨0, 0⟩,
    .spawn (.activateLookup 7 "operator"), .step 1 ⟨1, 0⟩, .step 1 ⟨1, 0⟩, .step 1 ⟨1, 0⟩,
    .env (.assignments (auditStore.revokeRole "alice" "auditor")), .env (.constraints ⟨auditPolicies⟩)]

/-- The creation has read the role when it is revoked. -/
def revokedRun : List (SessionEvent (InMemoryAssignmentStore String TestPerm) InMemoryConstraintStore Nat String) :=
  [.spawn (.createRoles "alice" {"auditor"} 60), .step 0 ⟨0, 0⟩,
    .env (.assignments (auditStore.revokeRole "alice" "auditor")), .step 0 ⟨0, 0⟩, .step 0 ⟨0, 7⟩, .step 0 ⟨0, 0⟩]

theorem auditPolicies_listed : ListsOnly auditPolicies (⟨auditPolicies⟩ : InMemoryConstraintStore) :=
  fun _ h => (Except.ok.inj h).symm

theorem auditRun_fixed : ∀ e ∈ auditRun, FixedPolicies auditPolicies e := by
  intro e he
  simp only [auditRun, List.mem_cons, List.not_mem_nil, or_false] at he
  rcases he with rfl | rfl | rfl | rfl | rfl | rfl | rfl | rfl | rfl | rfl | rfl <;>
    first | trivial | exact auditPolicies_listed

theorem auditRun_spares : sessionMachine.Along SparesCalls (freshManager auditStore (some ⟨auditPolicies⟩)) auditRun := by
  refine ⟨trivial, trivial, trivial, trivial, trivial, trivial, trivial, trivial, trivial, ?_, trivial, trivial⟩
  intro i call subject r hcall hr
  have hthreads : (sessionMachine.run (freshManager auditStore (some ⟨auditPolicies⟩)) (auditRun.take 9)).threads =
      [.returned, .returned] := rfl
  have hmem : call ∈ [SessionCall.returned, .returned] := hthreads ▸ List.mem_of_getElem? hcall
  obtain rfl : call = .returned := by simpa using hmem
  exact hr.elim

theorem auditRun_session : ((sessionMachine.run (freshManager auditStore (some ⟨auditPolicies⟩))
    auditRun).shared.sessions.get? 7).map RbacSession.activeRoles = some {"auditor"} := by decide +kernel

theorem dsd_invariant_audit : ∃ s, (sessionMachine.run (freshManager auditStore (some ⟨auditPolicies⟩))
      auditRun).shared.sessions.get? 7 = some s ∧ s.activeRoles = {"auditor"} ∧
    PassesAll auditPolicies s.activeRoles ∧ ∀ r ∈ s.activeRoles, ∃ i k,
      Activation (freshManager auditStore (some ⟨auditPolicies⟩)) auditRun 7 s.subject r i k := by
  obtain ⟨s, hs, hroles⟩ := Option.map_eq_some_iff.1 auditRun_session
  have hmain := dsd_invariant auditPolicies auditStore ⟨auditPolicies⟩ auditPolicies_listed auditRun auditRun_fixed
  exact ⟨s, hs, hroles, hmain.1 7 s hs, hmain.2.1 auditRun_spares 7 s hs⟩

theorem answersWithout_revoked : AnswersWithout (auditStore.revokeRole "alice" "auditor") "alice" "auditor" :=
  ⟨_, rfl, by decide⟩

theorem revokedRun_session : ((sessionMachine.run (freshManager auditStore (some ⟨auditPolicies⟩))
    revokedRun).shared.sessions.get? 7).map (fun s => (s.subject, s.activeRoles)) = some ("alice", {"auditor"}) := by
  decide +kernel

/-- The role is revoked from the third event on, and no earlier step activates it. -/
theorem not_rolesAssigned_revoked :
    ¬ RolesAssigned (freshManager auditStore (some ⟨auditPolicies⟩)) revokedRun := by
  intro h
  obtain ⟨s, hs, hfields⟩ := Option.map_eq_some_iff.1 revokedRun_session
  obtain ⟨hsubject, hroles⟩ : s.subject = "alice" ∧ s.activeRoles = {"auditor"} := by simpa using hfields
  obtain ⟨i, k, hact⟩ := h 7 s hs "auditor" (by rw [hroles]; exact Finset.mem_singleton_self _)
  rw [hsubject] at hact
  obtain ⟨input, call, hk, hcall, hactivates⟩ := hact.step
  have hlt : k < 6 := (List.getElem?_eq_some_iff.1 hk).1
  have hwithout := hact.assigned.not_without
  interval_cases k
  · cases hk
  · obtain ⟨rfl, -⟩ := PoolEvent.step.inj (Option.some.inj hk)
    obtain rfl := Option.some.inj hcall
    exact hactivates
  · cases hk
  · exact hwithout answersWithout_revoked
  · exact hwithout answersWithout_revoked
  · exact hwithout answersWithout_revoked

end Rbac
end Kirino
