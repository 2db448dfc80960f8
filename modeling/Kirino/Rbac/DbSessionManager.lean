import Kirino.Lib.Threads
import Kirino.Rbac.DbSessionStore
import Kirino.Rbac.SessionManager
/-!
# DbSessionManager — the session manager over the table, at the grain of its awaits (`rbac/session/db.rs`)

A creation checks the roles and saves a row.  A role change loads the row, edits the list in memory and writes the whole
list back.  A version bump reads the subject's version and writes the next one to all its rows.  Between two steps of a
call the other calls go on, here or on another replica; a deletion and a cleanup are one statement each.
-/
namespace Kirino
namespace Rbac

open Lib (HashMap Machine Pool PoolEvent Program)
open DbSessionStore (loadedRow subjectVersion)

inductive DbSessionError (U E : Type) where
  | manager (e : SessionManagerError E)
  | sessionStore (e : DbSessionStoreError U)
  | invalidSubject (subjectId : String) (sessionId : U) (e : String)

inductive DbSessionReply (U S : Type) where
  | created (session : RbacSession U S)
  | unit
  | count (n : Nat)
  | version (v : UInt64)

abbrev DbSessionAnswer (U S E : Type) := Except (DbSessionError U E) (DbSessionReply U S)

/-- The table, and the stores the manager is wired to. -/
structure DbSessionState (A C U : Type) where
  store : DbSessionStore U
  assignmentStore : A
  constraintStore : Option C

/-- A call in flight, named by what it does next. -/
inductive DbSessionCall (U S : Type) where
  | createRoles (subject : S) (requested : Finset String) (ttl : Int)
  | createConstraints (subject : S) (active : Finset String) (ttl : Int)
  | createSave (subject : S) (row : SessionRow U)
  | activateLoad (sessionId : U) (roleName : String)
  | activateRoles (row : SessionRow U) (subject : S) (roleName : String)
  | activateConstraints (row : SessionRow U) (roleName : String)
  | activateUpdate (row : SessionRow U) (roleName : String)
  | deactivateLoad (sessionId : U) (roleName : String)
  | deactivateUpdate (row : SessionRow U) (roleName : String)
  | bumpRead (subject : S)
  | bumpWrite (subject : S) (next : UInt64)
  | returned

/-- Calls of one statement, and what is around the manager moving on. -/
inductive DbSessionOp (A C U : Type) where
  | destroySession (sessionId : U)
  | cleanupExpired (now : Int)
  | assignments (store : A)
  | constraints (store : C)
  | database (reachable : Bool)

abbrev DbStepResult (A C U S E : Type) := DbSessionState A C U × DbSessionCall U S × Option (DbSessionAnswer U S E)

section Results
variable {A C U S E : Type}

def DbSessionState.withRows (w : DbSessionState A C U) (rows : HashMap U StoredRow) : DbSessionState A C U :=
  { w with store := { w.store with rows } }

/-- The call goes on. -/
def goOn (w : DbSessionState A C U) (call : DbSessionCall U S) : DbStepResult A C U S E := (w, call, none)

/-- The call returns an error. -/
def fail (w : DbSessionState A C U) (e : DbSessionError U E) : DbStepResult A C U S E := (w, .returned, some (.error e))

/-- The call returns with its statement, or with the statement's error. -/
def commit (w : DbSessionState A C U) (statement : Except (DbSessionStoreError U) (DbSessionStore U))
    (reply : DbSessionReply U S) : DbStepResult A C U S E :=
  match statement with
  | .ok store => ({ w with store }, .returned, some (.ok reply))
  | .error e => fail w (.sessionStore e)

end Results

section Steps
variable {A C U S P E : Type} [AssignmentStore A S P E] [ConstraintStore C E] [Subject S] [DecidableEq U]

/-- The row a creation saves: its version is always 0. -/
def createSaveCall (input : StepInput U) (subject : S) (active : Finset String) (ttl : Int) : DbSessionCall U S :=
  .createSave subject ⟨input.uuid, subjectId subject, active, 0, input.now + ttl, input.now⟩

def createRolesDbStep (w : DbSessionState A C U) (input : StepInput U) (subject : S) (requested : Finset String)
    (ttl : Int) : DbStepResult A C U S E :=
  match rolesOf w.assignmentStore subject with
  | .error e => fail w (.manager (.store e))
  | .ok assigned =>
    let active := requested.filter (fun r => r ∈ assigned)
    match w.constraintStore with
    | some _ => goOn w (.createConstraints subject active ttl)
    | none => goOn w (createSaveCall input subject active ttl)

def createConstraintsDbStep (w : DbSessionState A C U) (input : StepInput U) (subject : S) (active : Finset String)
    (ttl : Int) : DbStepResult A C U S E :=
  match w.constraintStore with
  | some cs =>
    match validateDsdWithStore active cs with
    | .error e => fail w (.manager e)
    | .ok () => goOn w (createSaveCall input subject active ttl)
  | none => goOn w (createSaveCall input subject active ttl)

def createSaveStep (w : DbSessionState A C U) (subject : S) (row : SessionRow U) : DbStepResult A C U S E :=
  commit w (w.store.saveSession row) (.created ⟨row.id, subject, row.activeRoles, 0, row.expiresAt⟩)

def activateLoadStep [SubjectOfId S] (w : DbSessionState A C U) (now : Int) (sessionId : U) (roleName : String) :
    DbStepResult A C U S E :=
  match w.store.loadSession sessionId with
  | .error e => fail w (.sessionStore e)
  | .ok none => fail w (.manager .sessionNotFound)
  | .ok (some row) =>
    if now > row.expiresAt then fail w (.manager .sessionExpired)
    else if roleName ∈ row.activeRoles then (w, .returned, some (.ok .unit))
    else
      match trySubjectOfId row.subjectId with
      | .error e => fail w (.invalidSubject row.subjectId sessionId e)
      | .ok subject => goOn w (.activateRoles row subject roleName)

def activateRolesDbStep (w : DbSessionState A C U) (row : SessionRow U) (subject : S) (roleName : String) :
    DbStepResult A C U S E :=
  match rolesOf w.assignmentStore subject with
  | .error e => fail w (.manager (.store e))
  | .ok assigned =>
    if roleName ∈ assigned then
      match w.constraintStore with
      | some _ => goOn w (.activateConstraints row roleName)
      | none => goOn w (.activateUpdate row roleName)
    else fail w (.manager (.notFound ("role '" ++ roleName ++ "' not assigned to subject")))

def activateConstraintsDbStep (w : DbSessionState A C U) (row : SessionRow U) (roleName : String) :
    DbStepResult A C U S E :=
  match w.constraintStore with
  | some cs =>
    match validateDsdWithStore (insert roleName row.activeRoles) cs with
    | .error e => fail w (.manager e)
    | .ok () => goOn w (.activateUpdate row roleName)
  | none => goOn w (.activateUpdate row roleName)

def activateUpdateStep (w : DbSessionState A C U) (row : SessionRow U) (roleName : String) : DbStepResult A C U S E :=
  commit w (w.store.updateRoles row.id (insert roleName row.activeRoles)) .unit

def deactivateLoadStep (w : DbSessionState A C U) (now : Int) (sessionId : U) (roleName : String) :
    DbStepResult A C U S E :=
  match w.store.loadSession sessionId with
  | .error e => fail w (.sessionStore e)
  | .ok none => fail w (.manager .sessionNotFound)
  | .ok (some row) =>
    if now > row.expiresAt then fail w (.manager .sessionExpired) else goOn w (.deactivateUpdate row roleName)

def deactivateUpdateStep (w : DbSessionState A C U) (row : SessionRow U) (roleName : String) : DbStepResult A C U S E :=
  commit w (w.store.updateRoles row.id (row.activeRoles.erase roleName)) .unit

variable (newest : List StoredRow → Option StoredRow)

def bumpReadStep (w : DbSessionState A C U) (subject : S) : DbStepResult A C U S E :=
  match w.store.loadSessionMetadata newest (subjectId subject) with
  | .error e => fail w (.sessionStore e)
  | .ok version => goOn w (.bumpWrite subject (version.getD 0 + 1))

def bumpWriteStep (w : DbSessionState A C U) (subject : S) (next : UInt64) : DbStepResult A C U S E :=
  commit w (w.store.bumpVersion (subjectId subject) next) (.version next)

def DbSessionCall.next [SubjectOfId S] (input : StepInput U) (w : DbSessionState A C U) :
    DbSessionCall U S → DbStepResult A C U S E
  | .createRoles subject requested ttl => createRolesDbStep w input subject requested ttl
  | .createConstraints subject active ttl => createConstraintsDbStep w input subject active ttl
  | .createSave subject row => createSaveStep w subject row
  | .activateLoad sessionId roleName => activateLoadStep w input.now sessionId roleName
  | .activateRoles row subject roleName => activateRolesDbStep w row subject roleName
  | .activateConstraints row roleName => activateConstraintsDbStep w row roleName
  | .activateUpdate row roleName => activateUpdateStep w row roleName
  | .deactivateLoad sessionId roleName => deactivateLoadStep w input.now sessionId roleName
  | .deactivateUpdate row roleName => deactivateUpdateStep w row roleName
  | .bumpRead subject => bumpReadStep newest w subject
  | .bumpWrite subject next => bumpWriteStep w subject next
  | .returned => goOn w .returned

def DbSessionOp.run (S E : Type) (op : DbSessionOp A C U) (w : DbSessionState A C U) :
    DbSessionState A C U × Option (DbSessionAnswer U S E) :=
  match op with
  | .destroySession sessionId =>
    match w.store.deleteSession sessionId with
    | .ok store => ({ w with store }, some (.ok .unit))
    | .error e => (w, some (.error (.sessionStore e)))
  | .cleanupExpired now =>
    match w.store.cleanupExpired now with
    | .ok (store, n) => ({ w with store }, some (.ok (.count n)))
    | .error e => (w, some (.error (.sessionStore e)))
  | .assignments assignmentStore => ({ w with assignmentStore }, none)
  | .constraints store => ({ w with constraintStore := w.constraintStore.map (fun _ => store) }, none)
  | .database reachable => ({ w with store := { w.store with reachable } }, none)

/-- The manager and its calls in flight. -/
def dbSessionProgram [SubjectOfId S] : Program (DbSessionState A C U) (DbSessionCall U S) (StepInput U)
    (DbSessionOp A C U) (Option (DbSessionAnswer U S E)) where
  next _ input w call := call.next newest input w
  env op w := op.run S E w
  idle := none

abbrev DbSessionPool (A C U S : Type) := Pool (DbSessionState A C U) (DbSessionCall U S)

abbrev DbSessionEvent (A C U S : Type) := PoolEvent (DbSessionCall U S) (StepInput U) (DbSessionOp A C U)

/-- The manager as a machine. -/
def dbSessionMachine [SubjectOfId S] :
    Machine (DbSessionPool A C U S) (DbSessionEvent A C U S) (Option (DbSessionAnswer U S E)) :=
  (dbSessionProgram newest).machine

end Steps

/-! ## What a step does to the table -/

section Effects
variable {A C U S E : Type} [Subject S] [DecidableEq U]

/-- What a step of a call does to the table, and how it answers: it answers no success and changes nothing; it finds the
role active; it saves the new row; it writes a role list; or it writes a version. -/
inductive DbStepEffect (w : DbSessionState A C U) (call : DbSessionCall U S) : DbStepResult A C U S E → Prop where
  | quiet (call' : DbSessionCall U S) (answer : Option (DbSessionAnswer U S E))
      (hok : ∀ reply, answer ≠ some (.ok reply)) : DbStepEffect w call (w, call', answer)
  | found (sessionId : U) (roleName : String) (stored : StoredRow) (hcall : call = .activateLoad sessionId roleName)
      (hstored : w.store.rows.get? sessionId = some stored) (hrole : roleName ∈ stored.activeRoles) :
    DbStepEffect w call (w, .returned, some (.ok .unit))
  | saved (subject : S) (row : SessionRow U) (hcall : call = .createSave subject row)
      (hreachable : w.store.reachable = true) (hnew : w.store.rows.get? row.id = none) (reply : DbSessionReply U S) :
    DbStepEffect w call
      (w.withRows (w.store.rows.insert row.id ⟨row.subjectId, row.activeRoles, 0, row.expiresAt, row.createdAt⟩),
        .returned, some (.ok reply))
  | updated (row : SessionRow U) (roleName : String) (activeRoles : Finset String) (stored : StoredRow)
      (hcall : call = .activateUpdate row roleName ∧ activeRoles = insert roleName row.activeRoles ∨
        call = .deactivateUpdate row roleName ∧ activeRoles = row.activeRoles.erase roleName)
      (hreachable : w.store.reachable = true) (hstored : w.store.rows.get? row.id = some stored) :
    DbStepEffect w call
      (w.withRows (w.store.rows.insert row.id { stored with activeRoles }), .returned, some (.ok .unit))
  | bumped (subject : S) (next : UInt64) (hcall : call = .bumpWrite subject next)
      (hreachable : w.store.reachable = true) :
    DbStepEffect w call
      (w.withRows (DbSessionStore.setVersion w.store.rows (subjectId subject) next), .returned,
        some (.ok (.version next)))

theorem DbStepEffect.waits (w : DbSessionState A C U) (call next : DbSessionCall U S) :
    DbStepEffect w call (goOn (E := E) w next) := .quiet next none nofun

theorem DbStepEffect.fails (w : DbSessionState A C U) (call : DbSessionCall U S) (e : DbSessionError U E) :
    DbStepEffect w call (fail (S := S) w e) := .quiet .returned (some (.error e)) nofun

theorem updateRoles_effect (w : DbSessionState A C U) (call : DbSessionCall U S) (row : SessionRow U)
    (roleName : String) (activeRoles : Finset String)
    (hcall : call = .activateUpdate row roleName ∧ activeRoles = insert roleName row.activeRoles ∨
      call = .deactivateUpdate row roleName ∧ activeRoles = row.activeRoles.erase roleName) :
    DbStepEffect w call (commit (S := S) (E := E) w (w.store.updateRoles row.id activeRoles) .unit) := by
  unfold DbSessionStore.updateRoles
  split
  · rename_i hreachable
    split
    · rename_i stored hstored
      exact .updated row roleName activeRoles stored hcall hreachable hstored
    · exact .fails w call _
  · exact .fails w call _

theorem loadedRow_eq_some {rows : HashMap U StoredRow} {id : U} {row : SessionRow U}
    (h : loadedRow rows id = some row) : ∃ stored, rows.get? id = some stored ∧
      row = ⟨id, stored.subjectId, stored.activeRoles, 0, stored.expiresAt, stored.createdAt⟩ := by
  obtain ⟨stored, hstored, rfl⟩ := Option.map_eq_some_iff.1 h
  exact ⟨stored, hstored, rfl⟩

theorem loadSession_eq_ok {d : DbSessionStore U} {id : U} {loaded : Option (SessionRow U)}
    (h : d.loadSession id = .ok loaded) : loaded = loadedRow d.rows id := by
  unfold DbSessionStore.loadSession at h
  split at h
  · cases hload : loadedRow d.rows id with
    | none =>
      rw [hload] at h
      exact (Except.ok.inj h).symm
    | some row =>
      rw [hload] at h
      exact DbSessionStore.decode_eq_ok h
  · cases h

end Effects

section Next
variable {A C U S P E : Type} [AssignmentStore A S P E] [ConstraintStore C E] [Subject S] [SubjectOfId S] [DecidableEq U]

/-- **Every step of a call has one of these effects.** -/
theorem db_next_effect (newest : List StoredRow → Option StoredRow) (input : StepInput U) (w : DbSessionState A C U)
    (call : DbSessionCall U S) : DbStepEffect w call (call.next newest input w) := by
  cases call with
  | createRoles subject requested ttl =>
    unfold DbSessionCall.next createRolesDbStep
    dsimp only
    split
    · exact .fails w _ _
    · split <;> exact .waits w _ _
  | createConstraints subject active ttl =>
    unfold DbSessionCall.next createConstraintsDbStep
    dsimp only
    split
    · split
      · exact .fails w _ _
      · exact .waits w _ _
    · exact .waits w _ _
  | createSave subject row =>
    unfold DbSessionCall.next createSaveStep DbSessionStore.saveSession
    dsimp only
    split
    · rename_i hsave
      exact .saved subject row rfl hsave.1 hsave.2 _
    · exact .fails w _ _
  | activateLoad sessionId roleName =>
    unfold DbSessionCall.next activateLoadStep
    dsimp only
    split
    · exact .fails w _ _
    · exact .fails w _ _
    · rename_i row hload
      obtain ⟨stored, hstored, rfl⟩ := loadedRow_eq_some (loadSession_eq_ok hload).symm
      split
      · exact .fails w _ _
      · split
        · rename_i hrole
          exact .found sessionId roleName stored rfl hstored hrole
        · split
          · exact .fails w _ _
          · exact .waits w _ _
  | activateRoles row subject roleName =>
    unfold DbSessionCall.next activateRolesDbStep
    dsimp only
    split
    · exact .fails w _ _
    · split
      · split <;> exact .waits w _ _
      · exact .fails w _ _
  | activateConstraints row roleName =>
    unfold DbSessionCall.next activateConstraintsDbStep
    dsimp only
    split
    · split
      · exact .fails w _ _
      · exact .waits w _ _
    · exact .waits w _ _
  | activateUpdate row roleName => exact updateRoles_effect w _ row roleName _ (Or.inl ⟨rfl, rfl⟩)
  | deactivateLoad sessionId roleName =>
    unfold DbSessionCall.next deactivateLoadStep
    dsimp only
    split
    · exact .fails w _ _
    · exact .fails w _ _
    · split
      · exact .fails w _ _
      · exact .waits w _ _
  | deactivateUpdate row roleName => exact updateRoles_effect w _ row roleName _ (Or.inr ⟨rfl, rfl⟩)
  | bumpRead subject =>
    unfold DbSessionCall.next bumpReadStep
    dsimp only
    split
    · exact .fails w _ _
    · exact .waits w _ _
  | bumpWrite subject next =>
    unfold DbSessionCall.next bumpWriteStep DbSessionStore.bumpVersion
    dsimp only
    split
    · rename_i hreachable
      exact .bumped subject next rfl hreachable
    · exact .fails w _ _
  | returned => exact .waits w _ _

end Next

end Rbac
end Kirino
