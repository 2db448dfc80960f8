import Mathlib.Algebra.Group.Nat.Defs
import Kirino.Lib.HashMap
import Kirino.Lib.Threads
import Kirino.Rbac.Constraints
import Kirino.Rbac.Traits
/-!
# SessionManager — the in-memory session manager at the grain of its awaits (`rbac/session/mod.rs`)

The manager keeps the sessions and the subjects' version counters behind two locks.  A creation reads the roles, lists
the policies, reads the version and inserts, taking the sessions lock for the insertion alone; an activation holds that
lock from its lookup to its insertion.  The other operations touch the manager once.  Between two steps of a call the
other calls go on, and the assignment store and the constraint store may come to any state, failing ones included.
-/
namespace Kirino
namespace Rbac

open Lib (HashMap Machine Pool PoolEvent Program)

structure RbacSession (U S : Type) where
  id : U
  subject : S
  activeRoles : Finset String
  version : Nat
  expiresAt : Int

def RbacSession.isExpired {U S : Type} (session : RbacSession U S) (now : Int) : Bool := decide (now > session.expiresAt)

inductive SessionManagerError (E : Type) where
  | sessionNotFound
  | sessionExpired
  | notFound (message : String)
  | constraintViolation (policyName : String) (roles : Finset String)
  | store (e : E)

/-- What a call that succeeds returns. -/
inductive SessionReply (U S : Type) where
  | created (session : RbacSession U S)
  | unit
  | count (n : Nat)
  | version (v : Nat)

abbrev SessionAnswer (U S E : Type) := Except (SessionManagerError E) (SessionReply U S)

def validateDsdWithStore {C E : Type} [ConstraintStore C E] (roles : Finset String) (constraintStore : C) :
    Except (SessionManagerError E) Unit :=
  match listDsdPolicies constraintStore with
  | .error e => .error (.store e)
  | .ok policies =>
    match policies.find? (fun policy => !policy.validate roles.val) with
    | some policy => .error (.constraintViolation policy.name roles)
    | none => .ok ()

/-- **Roles that pass the check pass every policy listed.** -/
theorem passesAll_of_validateDsd {C E : Type} [ConstraintStore C E] {roles : Finset String} {constraintStore : C}
    (h : validateDsdWithStore roles constraintStore = .ok ()) :
    ∃ policies, listDsdPolicies constraintStore = .ok policies ∧ PassesAll policies roles := by
  unfold validateDsdWithStore at h
  cases hlist : listDsdPolicies constraintStore with
  | error e =>
    rw [hlist] at h
    cases h
  | ok policies =>
    rw [hlist] at h
    dsimp only at h
    cases hfind : policies.find? (fun policy => !policy.validate roles.val) with
    | some policy =>
      rw [hfind] at h
      cases h
    | none =>
      refine ⟨policies, rfl, fun policy hpolicy => ?_⟩
      simpa using List.find?_eq_none.1 hfind policy hpolicy

/-- The manager, with the stores it is wired to and the holder of the sessions lock. -/
structure SessionState (A C U S : Type) where
  assignmentStore : A
  constraintStore : Option C
  sessions : HashMap U (RbacSession U S)
  subjectVersions : HashMap String Nat
  lock : Option Nat

/-- A call in flight, named by what it does next. -/
inductive SessionCall (U S : Type) where
  | createRoles (subject : S) (requested : Finset String) (ttl : Int)
  | createConstraints (subject : S) (active : Finset String) (ttl : Int)
  | createVersion (subject : S) (active : Finset String) (ttl : Int)
  | createInsert (session : RbacSession U S)
  | activateLookup (sessionId : U) (roleName : String)
  | activateRoles (session : RbacSession U S) (roleName : String)
  | activateConstraints (session : RbacSession U S) (roleName : String)
  | returned

section Calls
variable {U S : Type}

/-- The calls a caller can start. -/
def SessionCall.Starts : SessionCall U S → Prop
  | .createRoles _ _ _ => True
  | .activateLookup _ _ => True
  | _ => False

/-- The call adds the role to the session it holds, once it has read that the role is assigned. -/
def SessionCall.Adds (session : RbacSession U S) (roleName : String) : SessionCall U S → Prop
  | .activateRoles s r => s = session ∧ r = roleName
  | .activateConstraints s r => s = session ∧ r = roleName
  | _ => False

theorem SessionCall.Adds.eq {session : RbacSession U S} {roleName : String} {call : SessionCall U S}
    (h : call.Adds session roleName) : call = .activateRoles session roleName ∨ call = .activateConstraints session roleName := by
  cases call with
  | activateRoles s r =>
    obtain ⟨rfl, rfl⟩ := h
    exact Or.inl rfl
  | activateConstraints s r =>
    obtain ⟨rfl, rfl⟩ := h
    exact Or.inr rfl
  | _ => exact h.elim

/-- The call holds the sessions lock between its steps. -/
def SessionCall.Holds : SessionCall U S → Prop
  | .activateRoles _ _ => True
  | .activateConstraints _ _ => True
  | _ => False

/-- The session the call carries between its steps. -/
def SessionCall.Carries (session : RbacSession U S) : SessionCall U S → Prop
  | .createInsert s => s = session
  | .activateRoles s _ => s = session
  | .activateConstraints s _ => s = session
  | _ => False

end Calls

/-- The clock reading and the fresh identifier a step may use. -/
structure StepInput (U : Type) where
  now : Int
  uuid : U

/-- Operations that touch the manager once, and the two stores moving on. -/
inductive SessionOp (A C U S : Type) where
  | deactivateRole (now : Int) (sessionId : U) (roleName : String)
  | destroySession (sessionId : U)
  | revokeAllForSubject (subject : S)
  | cleanupExpired (now : Int)
  | bumpVersionForSubject (subject : S)
  | assignments (store : A)
  | constraints (store : C)

section Steps
variable {A C U S P E : Type} [AssignmentStore A S P E] [ConstraintStore C E] [Subject S] [DecidableEq U]

def currentVersion (w : SessionState A C U S) (subject : S) : Nat :=
  (w.subjectVersions.get? (subjectId subject)).getD 0

/-- The session with the role added, stored, and the lock released. -/
def SessionState.activate (w : SessionState A C U S) (session : RbacSession U S) (roleName : String) :
    SessionState A C U S :=
  { w with
    sessions := w.sessions.insert session.id { session with activeRoles := insert roleName session.activeRoles }
    lock := none }

def SessionState.unlock (w : SessionState A C U S) : SessionState A C U S := { w with lock := none }

/-- What a step does: the state it leaves, where the call goes on, and the answer when it returns. -/
abbrev StepResult (A C U S E : Type) := SessionState A C U S × SessionCall U S × Option (SessionAnswer U S E)

def createRolesStep (w : SessionState A C U S) (subject : S) (requested : Finset String) (ttl : Int) :
    StepResult A C U S E :=
  match rolesOf w.assignmentStore subject with
  | .error e => (w, .returned, some (.error (.store e)))
  | .ok assigned =>
    let active := requested.filter (fun r => r ∈ assigned)
    match w.constraintStore with
    | some _ => (w, .createConstraints subject active ttl, none)
    | none => (w, .createVersion subject active ttl, none)

def createConstraintsStep (w : SessionState A C U S) (subject : S) (active : Finset String) (ttl : Int) :
    StepResult A C U S E :=
  match w.constraintStore with
  | some cs =>
    match validateDsdWithStore active cs with
    | .error e => (w, .returned, some (.error e))
    | .ok () => (w, .createVersion subject active ttl, none)
  | none => (w, .createVersion subject active ttl, none)

def createVersionStep (w : SessionState A C U S) (input : StepInput U) (subject : S) (active : Finset String)
    (ttl : Int) : StepResult A C U S E :=
  (w, .createInsert ⟨input.uuid, subject, active, currentVersion w subject, input.now + ttl⟩, none)

def createInsertStep (w : SessionState A C U S) (session : RbacSession U S) : StepResult A C U S E :=
  if w.lock.isSome then (w, .createInsert session, none)
  else ({ w with sessions := w.sessions.insert session.id session }, .returned, some (.ok (.created session)))

def activateLookupStep (w : SessionState A C U S) (i : Nat) (now : Int) (sessionId : U) (roleName : String) :
    StepResult A C U S E :=
  if w.lock.isSome then (w, .activateLookup sessionId roleName, none)
  else
    match w.sessions.get? sessionId with
    | none => (w, .returned, some (.error .sessionNotFound))
    | some session =>
      if session.isExpired now then (w, .returned, some (.error .sessionExpired))
      else if roleName ∈ session.activeRoles then (w, .returned, some (.ok .unit))
      else ({ w with lock := some i }, .activateRoles session roleName, none)

def activateRolesStep (w : SessionState A C U S) (session : RbacSession U S) (roleName : String) :
    StepResult A C U S E :=
  match rolesOf w.assignmentStore session.subject with
  | .error e => (w.unlock, .returned, some (.error (.store e)))
  | .ok assigned =>
    if roleName ∈ assigned then
      match w.constraintStore with
      | some _ => (w, .activateConstraints session roleName, none)
      | none => (w.activate session roleName, .returned, some (.ok .unit))
    else (w.unlock, .returned, some (.error (.notFound ("role '" ++ roleName ++ "' not assigned to subject"))))

def activateConstraintsStep (w : SessionState A C U S) (session : RbacSession U S) (roleName : String) :
    StepResult A C U S E :=
  match w.constraintStore with
  | some cs =>
    match validateDsdWithStore (insert roleName session.activeRoles) cs with
    | .error e => (w.unlock, .returned, some (.error e))
    | .ok () => (w.activate session roleName, .returned, some (.ok .unit))
  | none => (w.activate session roleName, .returned, some (.ok .unit))

def SessionCall.next (i : Nat) (input : StepInput U) (w : SessionState A C U S) : SessionCall U S → StepResult A C U S E
  | .createRoles subject requested ttl => createRolesStep w subject requested ttl
  | .createConstraints subject active ttl => createConstraintsStep w subject active ttl
  | .createVersion subject active ttl => createVersionStep w input subject active ttl
  | .createInsert session => createInsertStep w session
  | .activateLookup sessionId roleName => activateLookupStep w i input.now sessionId roleName
  | .activateRoles session roleName => activateRolesStep w session roleName
  | .activateConstraints session roleName => activateConstraintsStep w session roleName
  | .returned => (w, .returned, none)

/-- A version counter is an unsigned 64-bit integer, and its increment wraps. -/
def wrappingSucc (v : Nat) : Nat := (v + 1) % 2 ^ 64

def SessionState.deactivateRole (w : SessionState A C U S) (now : Int) (sessionId : U) (roleName : String) :
    SessionState A C U S × SessionAnswer U S E :=
  match w.sessions.get? sessionId with
  | none => (w, .error .sessionNotFound)
  | some session =>
    if session.isExpired now then (w, .error .sessionExpired)
    else
      ({ w with
          sessions := w.sessions.insert sessionId { session with activeRoles := session.activeRoles.erase roleName } },
        .ok .unit)

/-- An operation on the sessions waits while the lock is held. -/
def SessionOp.run (E : Type) (op : SessionOp A C U S) (w : SessionState A C U S) :
    SessionState A C U S × Option (SessionAnswer U S E) :=
  match op with
  | .deactivateRole now sessionId roleName =>
    if w.lock.isSome then (w, none)
    else
      let (w', answer) := w.deactivateRole now sessionId roleName
      (w', some answer)
  | .destroySession sessionId =>
    if w.lock.isSome then (w, none)
    else ({ w with sessions := w.sessions.remove sessionId }, some (.ok .unit))
  | .revokeAllForSubject subject =>
    if w.lock.isSome then (w, none)
    else
      let sessions := w.sessions.retain (fun _ s => decide (subjectId s.subject ≠ subjectId subject))
      ({ w with sessions }, some (.ok (.count (w.sessions.len - sessions.len))))
  | .cleanupExpired now =>
    if w.lock.isSome then (w, none)
    else
      let sessions := w.sessions.retain (fun _ s => !s.isExpired now)
      ({ w with sessions }, some (.ok (.count (w.sessions.len - sessions.len))))
  | .bumpVersionForSubject subject =>
    let next := wrappingSucc (currentVersion w subject)
    ({ w with subjectVersions := w.subjectVersions.insert (subjectId subject) next }, some (.ok (.version next)))
  | .assignments store => ({ w with assignmentStore := store }, none)
  | .constraints store => ({ w with constraintStore := w.constraintStore.map (fun _ => store) }, none)

/-- The manager and its calls in flight. -/
def sessionProgram : Program (SessionState A C U S) (SessionCall U S) (StepInput U) (SessionOp A C U S)
    (Option (SessionAnswer U S E)) where
  next i input w call := call.next i input w
  env op w := op.run E w
  idle := none

abbrev SessionPool (A C U S : Type) := Pool (SessionState A C U S) (SessionCall U S)

abbrev SessionEvent (A C U S : Type) := PoolEvent (SessionCall U S) (StepInput U) (SessionOp A C U S)

/-- The manager as a machine. -/
def sessionMachine : Machine (SessionPool A C U S) (SessionEvent A C U S) (Option (SessionAnswer U S E)) :=
  sessionProgram.machine

/-- A manager as it is built, wired to the two stores. -/
def freshManager (store : A) (constraintStore : Option C) : SessionPool A C U S :=
  ⟨⟨store, constraintStore, HashMap.empty, HashMap.empty, none⟩, []⟩

/-! ## What a step does to the sessions -/

/-- What a step of call `i` does to the manager: nothing; it takes the lock or gives it back; it inserts the created
session; or it adds a role to the session it holds. -/
inductive StepEffect (i : Nat) (w : SessionState A C U S) (call : SessionCall U S) :
    SessionState A C U S → Option (SessionAnswer U S E) → Prop where
  | quiet (answer : Option (SessionAnswer U S E)) : StepEffect i w call w answer
  | locked (free : w.lock = none) : StepEffect i w call { w with lock := some i } none
  | unlocked (holds : call.Holds) (e : SessionManagerError E) : StepEffect i w call w.unlock (some (.error e))
  | inserted (s : RbacSession U S) (hcall : call = .createInsert s) (free : w.lock = none) :
    StepEffect i w call { w with sessions := w.sessions.insert s.id s } (some (.ok (.created s)))
  | activated (s : RbacSession U S) (r : String) (adds : call.Adds s r)
      (assigned : call = .activateRoles s r → ∃ roles, rolesOf w.assignmentStore s.subject = .ok roles ∧ r ∈ roles)
      (valid : ∀ cs, w.constraintStore = some cs → validateDsdWithStore (insert r s.activeRoles) cs = .ok ()) :
    StepEffect i w call (w.activate s r) (some (.ok .unit))

/-- **Every step of a call has one of these effects.** -/
theorem next_effect (i : Nat) (input : StepInput U) (w : SessionState A C U S) (call : SessionCall U S) :
    StepEffect i w call (call.next i input w).1 (call.next i input w).2.2 := by
  cases call with
  | createRoles subject requested ttl =>
    unfold SessionCall.next createRolesStep
    dsimp only
    split
    · exact .quiet _
    · split <;> exact .quiet _
  | createConstraints subject active ttl =>
    unfold SessionCall.next createConstraintsStep
    dsimp only
    split
    · split <;> exact .quiet _
    · exact .quiet _
  | createVersion subject active ttl => exact .quiet _
  | createInsert session =>
    unfold SessionCall.next createInsertStep
    dsimp only
    split
    · exact .quiet _
    · rename_i hfree
      exact .inserted session rfl (by simpa using hfree)
  | activateLookup sessionId roleName =>
    unfold SessionCall.next activateLookupStep
    dsimp only
    split
    · exact .quiet _
    · rename_i hfree
      split
      · exact .quiet _
      · split
        · exact .quiet _
        · split
          · exact .quiet _
          · exact .locked (by simpa using hfree)
  | activateRoles session roleName =>
    unfold SessionCall.next activateRolesStep
    dsimp only
    split
    · exact .unlocked (by trivial) _
    · rename_i roles hroles
      split
      · rename_i hr
        split
        · exact .quiet _
        · rename_i hnone
          refine .activated session roleName ⟨rfl, rfl⟩ (fun _ => ⟨roles, hroles, hr⟩) (fun cs hcs => ?_)
          cases hnone.symm.trans hcs
      · exact .unlocked (by trivial) _
  | activateConstraints session roleName =>
    unfold SessionCall.next activateConstraintsStep
    dsimp only
    split
    · rename_i cs hcs
      split
      · exact .unlocked (by trivial) _
      · rename_i hvalid
        refine .activated session roleName ⟨rfl, rfl⟩ (by simp) (fun cs' hcs' => ?_)
        obtain rfl := Option.some.inj (hcs.symm.trans hcs')
        exact hvalid
    · rename_i hnone
      refine .activated session roleName ⟨rfl, rfl⟩ (by simp) (fun cs hcs => ?_)
      cases hnone.symm.trans hcs
  | returned => exact .quiet _

/-- Where a step of call `i` goes on: it returns; it waits for the lock; or it goes to its next place with what it
found. -/
inductive GoesOn (i : Nat) (input : StepInput U) (w : SessionState A C U S) :
    SessionCall U S → SessionState A C U S → SessionCall U S → Prop where
  | returned (call : SessionCall U S) (w' : SessionState A C U S) : GoesOn i input w call w' .returned
  | waits (call : SessionCall U S) (held : w.lock ≠ none) : GoesOn i input w call w call
  | toConstraints (subject : S) (requested : Finset String) (ttl : Int) (roles : List String)
      (hroles : rolesOf w.assignmentStore subject = .ok roles) :
    GoesOn i input w (.createRoles subject requested ttl) w
      (.createConstraints subject (requested.filter (fun r => r ∈ roles)) ttl)
  | toVersion (subject : S) (requested : Finset String) (ttl : Int) (roles : List String)
      (hroles : rolesOf w.assignmentStore subject = .ok roles) (unwired : w.constraintStore = none) :
    GoesOn i input w (.createRoles subject requested ttl) w
      (.createVersion subject (requested.filter (fun r => r ∈ roles)) ttl)
  | validated (subject : S) (active : Finset String) (ttl : Int)
      (valid : ∀ cs, w.constraintStore = some cs → validateDsdWithStore active cs = .ok ()) :
    GoesOn i input w (.createConstraints subject active ttl) w (.createVersion subject active ttl)
  | stamped (subject : S) (active : Finset String) (ttl : Int) :
    GoesOn i input w (.createVersion subject active ttl) w
      (.createInsert ⟨input.uuid, subject, active, currentVersion w subject, input.now + ttl⟩)
  | found (sessionId : U) (roleName : String) (session : RbacSession U S)
      (free : w.lock = none) (hget : w.sessions.get? sessionId = some session)
      (live : session.isExpired input.now = false) (lacks : roleName ∉ session.activeRoles) :
    GoesOn i input w (.activateLookup sessionId roleName) { w with lock := some i } (.activateRoles session roleName)
  | assigned (session : RbacSession U S) (roleName : String) (roles : List String)
      (hroles : rolesOf w.assignmentStore session.subject = .ok roles) (hr : roleName ∈ roles) :
    GoesOn i input w (.activateRoles session roleName) w (.activateConstraints session roleName)

/-- **Every step of a call goes on so.** -/
theorem next_goesOn (i : Nat) (input : StepInput U) (w : SessionState A C U S) (call : SessionCall U S) :
    GoesOn i input w call (call.next i input w).1 (call.next i input w).2.1 := by
  cases call with
  | createRoles subject requested ttl =>
    unfold SessionCall.next createRolesStep
    dsimp only
    split
    · exact .returned _ _
    · rename_i roles hroles
      split
      · exact .toConstraints subject requested ttl roles hroles
      · rename_i hnone
        exact .toVersion subject requested ttl roles hroles hnone
  | createConstraints subject active ttl =>
    unfold SessionCall.next createConstraintsStep
    dsimp only
    split
    · rename_i cs hcs
      split
      · exact .returned _ _
      · rename_i hvalid
        refine .validated subject active ttl (fun cs' hcs' => ?_)
        obtain rfl := Option.some.inj (hcs.symm.trans hcs')
        exact hvalid
    · rename_i hnone
      refine .validated subject active ttl (fun cs hcs => ?_)
      cases hnone.symm.trans hcs
  | createVersion subject active ttl => exact .stamped subject active ttl
  | createInsert session =>
    unfold SessionCall.next createInsertStep
    dsimp only
    split
    · rename_i hheld
      exact .waits _ (Option.isSome_iff_ne_none.1 hheld)
    · exact .returned _ _
  | activateLookup sessionId roleName =>
    unfold SessionCall.next activateLookupStep
    dsimp only
    split
    · rename_i hheld
      exact .waits _ (Option.isSome_iff_ne_none.1 hheld)
    · rename_i hfree
      split
      · exact .returned _ _
      · rename_i session hsession
        split
        · exact .returned _ _
        · rename_i hlive
          split
          · exact .returned _ _
          · rename_i hlacks
            exact .found sessionId roleName session (by simpa using hfree) hsession (by simpa using hlive) hlacks
  | activateRoles session roleName =>
    unfold SessionCall.next activateRolesStep
    dsimp only
    split
    · exact .returned _ _
    · rename_i roles hroles
      split
      · rename_i hr
        split
        · exact .assigned session roleName roles hroles hr
        · exact .returned _ _
      · exact .returned _ _
  | activateConstraints session roleName =>
    unfold SessionCall.next activateConstraintsStep
    dsimp only
    split
    · split <;> exact .returned _ _
    · exact .returned _ _
  | returned => exact .returned _ _

/-- **Where the session a call carries comes from**: the call carried it, or looked it up, or stamped it with the
version it read. -/
theorem GoesOn.carries {i : Nat} {input : StepInput U} {w w' : SessionState A C U S} {call call' : SessionCall U S}
    (h : GoesOn i input w call w' call') {s : RbacSession U S} (hs : call'.Carries s) :
    call.Carries s ∨ (∃ id, w.sessions.get? id = some s) ∨
      ∃ subject active ttl, call = .createVersion subject active ttl ∧ s.subject = subject ∧ s.activeRoles = active ∧
        s.version = currentVersion w subject := by
  cases h with
  | returned => exact hs.elim
  | waits => exact Or.inl hs
  | toConstraints => exact hs.elim
  | toVersion => exact hs.elim
  | validated => exact hs.elim
  | stamped subject active ttl =>
    obtain rfl : _ = s := hs
    exact Or.inr (Or.inr ⟨subject, active, ttl, rfl, rfl, rfl, rfl⟩)
  | found sessionId roleName session _ hget =>
    obtain rfl : session = s := hs
    exact Or.inr (Or.inl ⟨sessionId, hget⟩)
  | assigned => exact Or.inl hs

end Steps

section Effects
variable {A C U S : Type} [DecidableEq U]

/-- Sessions of the second map come from the first, with no role added. -/
def Shrinks (m m' : HashMap U (RbacSession U S)) : Prop :=
  ∀ id s', m'.get? id = some s' → ∃ s, m.get? id = some s ∧ s'.activeRoles ⊆ s.activeRoles ∧ s'.id = s.id ∧
    s'.subject = s.subject ∧ s'.version = s.version

theorem Shrinks.refl (m : HashMap U (RbacSession U S)) : Shrinks m m :=
  fun _ s' h => ⟨s', h, Finset.Subset.refl _, rfl, rfl, rfl⟩

theorem Shrinks.get?_of_none {m m' : HashMap U (RbacSession U S)} (h : Shrinks m m') {id : U} (hnone : m.get? id = none) :
    m'.get? id = none := by
  refine Option.eq_none_iff_forall_ne_some.2 (fun s' hs' => ?_)
  obtain ⟨s, hs, -⟩ := h id s' hs'
  cases hnone.symm.trans hs

theorem SessionState.deactivateRole_cases (w : SessionState A C U S) (E : Type) (now : Int) (sessionId : U) (roleName : String) :
    (∃ e, w.deactivateRole now sessionId roleName = (w, (.error e : SessionAnswer U S E))) ∨
    ∃ s, w.sessions.get? sessionId = some s ∧ w.deactivateRole now sessionId roleName =
      ({ w with sessions := w.sessions.insert sessionId { s with activeRoles := s.activeRoles.erase roleName } },
        (.ok .unit : SessionAnswer U S E)) := by
  unfold SessionState.deactivateRole
  cases hget : w.sessions.get? sessionId with
  | none => exact Or.inl ⟨_, rfl⟩
  | some s =>
    dsimp only
    split
    · exact Or.inl ⟨_, rfl⟩
    · exact Or.inr ⟨s, rfl, rfl⟩

theorem Shrinks.retain (m : HashMap U (RbacSession U S)) (f : U → RbacSession U S → Bool) : Shrinks m (m.retain f) :=
  fun id s' h => Shrinks.refl m id s' ((m.get?_retain_eq_some f id s').1 h).1

variable {P E : Type} [AssignmentStore A S P E] [ConstraintStore C E]
variable {i : Nat} {w w' : SessionState A C U S} {call : SessionCall U S} {answer : Option (SessionAnswer U S E)}

theorem StepEffect.frame (h : StepEffect i w call w' answer) : w'.assignmentStore = w.assignmentStore ∧
    w'.constraintStore = w.constraintStore ∧ w'.subjectVersions = w.subjectVersions := by
  cases h <;> exact ⟨rfl, rfl, rfl⟩

/-- **A held lock keeps the others out**: a call that does not hold it leaves the state as it is. -/
theorem StepEffect.of_locked (h : StepEffect i w call w' answer) (hlock : w.lock ≠ none) (hcall : ¬ call.Holds) :
    w' = w := by
  cases h with
  | quiet => rfl
  | locked free => exact absurd free hlock
  | unlocked holds => exact absurd holds hcall
  | inserted s hs free => exact absurd free hlock
  | activated s r adds =>
    rcases adds.eq with rfl | rfl <;> exact absurd trivial hcall

/-- **Only an answered success changes the sessions.** -/
theorem StepEffect.sessions_eq (h : StepEffect i w call w' answer) (hok : ∀ reply, answer ≠ some (.ok reply)) :
    w'.sessions = w.sessions := by
  cases h with
  | quiet => rfl
  | locked => rfl
  | unlocked => rfl
  | inserted s => exact absurd rfl (hok _)
  | activated s r => exact absurd rfl (hok _)

/-- **Where a stored session comes from**: it was stored, or the call inserts the one it carries, as it is or with the
role it adds. -/
theorem StepEffect.stored (h : StepEffect i w call w' answer) {id : U} {s : RbacSession U S}
    (hs : w'.sessions.get? id = some s) : w.sessions.get? id = some s ∨ call = .createInsert s ∨
      ∃ s₀ r, call.Adds s₀ r ∧ s = { s₀ with activeRoles := insert r s₀.activeRoles } ∧
        (call = .activateRoles s₀ r → ∃ roles, rolesOf w.assignmentStore s₀.subject = .ok roles ∧ r ∈ roles) := by
  cases h with
  | quiet => exact Or.inl hs
  | locked => exact Or.inl hs
  | unlocked => exact Or.inl hs
  | inserted s₀ hcall =>
    dsimp only at hs
    rw [HashMap.get?_insert] at hs
    split at hs
    · obtain rfl := Option.some.inj hs
      exact Or.inr (Or.inl hcall)
    · exact Or.inl hs
  | activated s₀ r adds assigned =>
    dsimp only [SessionState.activate] at hs
    rw [HashMap.get?_insert] at hs
    split at hs
    · exact Or.inr (Or.inr ⟨s₀, r, adds, (Option.some.inj hs).symm, assigned⟩)
    · exact Or.inl hs

end Effects

section Ops
variable {A C U S : Type} [Subject S] [DecidableEq U]

theorem op_locked (E : Type) (op : SessionOp A C U S) (w : SessionState A C U S) :
    (op.run E w).1.lock = w.lock ∧ (w.lock ≠ none → (op.run E w).1.sessions = w.sessions) := by
  cases hlock : w.lock with
  | none =>
    refine ⟨?_, fun h => absurd rfl h⟩
    cases op with
    | deactivateRole now sessionId roleName =>
      unfold SessionOp.run SessionState.deactivateRole
      dsimp only
      rw [if_neg (by simp [hlock])]
      split <;> try exact hlock
      split <;> exact hlock
    | destroySession sessionId => simp [SessionOp.run, hlock]
    | revokeAllForSubject subject => simp [SessionOp.run, hlock]
    | cleanupExpired now => simp [SessionOp.run, hlock]
    | bumpVersionForSubject subject => exact hlock
    | assignments store => exact hlock
    | constraints store => exact hlock
  | some i =>
    cases op <;> simp [SessionOp.run, hlock]

theorem op_frame (E : Type) (op : SessionOp A C U S) (w : SessionState A C U S) :
    (op.run E w).1.assignmentStore = (match op with
      | .assignments store => store
      | _ => w.assignmentStore) ∧
    (op.run E w).1.constraintStore = (match op with
      | .constraints store => w.constraintStore.map (fun _ => store)
      | _ => w.constraintStore) ∧
    (op.run E w).1.subjectVersions = (match op with
      | .bumpVersionForSubject subject =>
        w.subjectVersions.insert (subjectId subject) (wrappingSucc (currentVersion w subject))
      | _ => w.subjectVersions) := by
  cases op with
  | deactivateRole now sessionId roleName =>
    unfold SessionOp.run
    dsimp only
    split
    · exact ⟨rfl, rfl, rfl⟩
    · rcases w.deactivateRole_cases E now sessionId roleName with ⟨e, he⟩ | ⟨s, hs, he⟩ <;>
        · rw [he]
          exact ⟨rfl, rfl, rfl⟩
  | destroySession sessionId =>
    unfold SessionOp.run
    dsimp only
    split <;> exact ⟨rfl, rfl, rfl⟩
  | revokeAllForSubject subject =>
    unfold SessionOp.run
    dsimp only
    split <;> exact ⟨rfl, rfl, rfl⟩
  | cleanupExpired now =>
    unfold SessionOp.run
    dsimp only
    split <;> exact ⟨rfl, rfl, rfl⟩
  | bumpVersionForSubject subject => exact ⟨rfl, rfl, rfl⟩
  | assignments store => exact ⟨rfl, rfl, rfl⟩
  | constraints store => exact ⟨rfl, rfl, rfl⟩

/-- **An operation adds no session and no role.** -/
theorem op_shrinks (E : Type) (op : SessionOp A C U S) (w : SessionState A C U S) :
    Shrinks w.sessions (op.run E w).1.sessions := by
  cases hlock : w.lock with
  | some i =>
    rw [(op_locked E op w).2 (by simp [hlock])]
    exact Shrinks.refl _
  | none =>
    have hfree : ¬ w.lock.isSome = true := by simp [hlock]
    cases op with
    | deactivateRole now sessionId roleName =>
      unfold SessionOp.run
      dsimp only
      rw [if_neg hfree]
      rcases w.deactivateRole_cases E now sessionId roleName with ⟨e, he⟩ | ⟨s, hs, he⟩
      · rw [he]
        exact Shrinks.refl _
      · rw [he]
        intro id s' h
        dsimp only at h
        rw [HashMap.get?_insert] at h
        split at h
        · rename_i hid
          obtain rfl := Option.some.inj h
          exact ⟨s, hid ▸ hs, Finset.erase_subset _ _, rfl, rfl, rfl⟩
        · exact Shrinks.refl _ id s' h
    | destroySession sessionId =>
      unfold SessionOp.run
      dsimp only
      rw [if_neg hfree]
      exact Shrinks.retain _ _
    | revokeAllForSubject subject =>
      unfold SessionOp.run
      dsimp only
      rw [if_neg hfree]
      exact Shrinks.retain _ _
    | cleanupExpired now =>
      unfold SessionOp.run
      dsimp only
      rw [if_neg hfree]
      exact Shrinks.retain _ _
    | bumpVersionForSubject subject => exact Shrinks.refl _
    | assignments store => exact Shrinks.refl _
    | constraints store => exact Shrinks.refl _

theorem op_sessions_eq {E : Type} {op : SessionOp A C U S} {w : SessionState A C U S}
    (hok : ∀ reply, (op.run E w).2 ≠ some (.ok reply)) : (op.run E w).1.sessions = w.sessions := by
  cases hlock : w.lock with
  | some i => exact (op_locked E op w).2 (by simp [hlock])
  | none =>
    have hfree : ¬ w.lock.isSome = true := by simp [hlock]
    cases op with
    | deactivateRole now sessionId roleName =>
      unfold SessionOp.run at *
      dsimp only at *
      rw [if_neg hfree] at *
      rcases w.deactivateRole_cases E now sessionId roleName with ⟨e, he⟩ | ⟨s, hs, he⟩
      · rw [he]
      · rw [he] at hok
        exact absurd rfl (hok .unit)
    | destroySession sessionId => exact absurd (by simp [SessionOp.run, hlock]) (hok .unit)
    | revokeAllForSubject subject =>
      unfold SessionOp.run at hok
      dsimp only at hok
      rw [if_neg hfree] at hok
      exact absurd rfl (hok _)
    | cleanupExpired now =>
      unfold SessionOp.run at hok
      dsimp only at hok
      rw [if_neg hfree] at hok
      exact absurd rfl (hok _)
    | bumpVersionForSubject subject => rfl
    | assignments store => rfl
    | constraints store => rfl

end Ops

end Rbac
end Kirino
