import Kirino.Rbac.DbSessionManager
/-!
# ManagerCalls — the calls of the two session managers, each on its own (`rbac/session/mod.rs`, `rbac/session/db.rs`)

Both managers implement one trait.  Here a call takes its steps with no other between them and reads the clock once, and
each manager is a machine whose events are whole calls.  What a call comes to is said in one equation for each manager,
over the two checks that they share: `createGate` and `activateGate`.
-/
namespace Kirino
namespace Rbac

open Lib (HashMap Machine Program)
open DbSessionStore (loadedRow)

/-- The calls of the trait that the managers share, and the stores moving on between them. -/
inductive ManagerOp (A C U S : Type) where
  | createSession (subject : S) (activeRoles : Finset String) (ttl : Int)
  | activateRole (sessionId : U) (roleName : String)
  | deactivateRole (sessionId : U) (roleName : String)
  | getSession (sessionId : U)
  | destroySession (sessionId : U)
  | currentVersion (subject : S)
  | cleanupExpired
  | assignments (store : A)
  | constraints (store : C)

/-- A call with its reading of the clock and the identifier it may draw. -/
structure ManagerEvent (A C U S : Type) where
  input : StepInput U
  op : ManagerOp A C U S

inductive ManagerReply (U S : Type) where
  | created (session : RbacSession U S)
  | session (found : Option (RbacSession U S))
  | unit
  | count (n : Nat)
  | version (v : Nat)

abbrev ManagerAnswer (U S E : Type) := Option (Except (DbSessionError U E) (ManagerReply U S))

section Replies
variable {U S E : Type}

def SessionReply.reply : SessionReply U S → ManagerReply U S
  | .created session => .created session
  | .unit => .unit
  | .count n => .count n
  | .version v => .version v

def DbSessionReply.reply : DbSessionReply U S → ManagerReply U S
  | .created session => .created session
  | .unit => .unit
  | .count n => .count n
  | .version v => .version v.toNat

def sessionAnswer : Option (SessionAnswer U S E) → ManagerAnswer U S E
  | some (.ok reply) => some (.ok reply.reply)
  | some (.error e) => some (.error (.manager e))
  | none => none

def dbSessionAnswer : Option (DbSessionAnswer U S E) → ManagerAnswer U S E
  | some (.ok reply) => some (.ok reply.reply)
  | some (.error e) => some (.error e)
  | none => none

end Replies

section Calls
variable {A C U S P E : Type} [AssignmentStore A S P E] [ConstraintStore C E] [Subject S] [SubjectOfId S] [DecidableEq U]

/-! ## The calls of the two managers, each on its own -/

/-- The steps that the longest call takes. -/
def callSteps : Nat := 4

def inMemoryAlone (event : StepInput U) (w : SessionState A C U S) (call : SessionCall U S) :
    SessionState A C U S × ManagerAnswer U S E :=
  let (w', answer) := sessionProgram.alone 0 event callSteps w call
  (w', sessionAnswer answer)

def inMemoryOp (w : SessionState A C U S) (op : SessionOp A C U S) : SessionState A C U S × ManagerAnswer U S E :=
  let (w', answer) := op.run E w
  (w', sessionAnswer answer)

def SessionState.call (w : SessionState A C U S) (event : ManagerEvent A C U S) :
    SessionState A C U S × ManagerAnswer U S E :=
  match event.op with
  | .createSession subject activeRoles ttl => inMemoryAlone event.input w (.createRoles subject activeRoles ttl)
  | .activateRole sessionId roleName => inMemoryAlone event.input w (.activateLookup sessionId roleName)
  | .deactivateRole sessionId roleName => inMemoryOp w (.deactivateRole event.input.now sessionId roleName)
  | .getSession sessionId => (w, some (.ok (.session (w.sessions.get? sessionId))))
  | .destroySession sessionId => inMemoryOp w (.destroySession sessionId)
  | .currentVersion subject => (w, some (.ok (.version (currentVersion w subject))))
  | .cleanupExpired => inMemoryOp w (.cleanupExpired event.input.now)
  | .assignments store => inMemoryOp w (.assignments store)
  | .constraints store => inMemoryOp w (.constraints store)

variable (newest : List StoredRow → Option StoredRow)

def dbAlone (event : StepInput U) (d : DbSessionState A C U) (call : DbSessionCall U S) :
    DbSessionState A C U × ManagerAnswer U S E :=
  let (d', answer) := (dbSessionProgram newest).alone 0 event callSteps d call
  (d', dbSessionAnswer answer)

def dbOp (d : DbSessionState A C U) (op : DbSessionOp A C U) : DbSessionState A C U × ManagerAnswer U S E :=
  let (d', answer) := op.run S E d
  (d', dbSessionAnswer answer)

/-- `get_session`: the row, its subject id converted back. -/
def DbSessionStore.getSession (d : DbSessionStore U) (sessionId : U) :
    Except (DbSessionError U E) (Option (RbacSession U S)) :=
  match d.loadSession sessionId with
  | .error e => .error (.sessionStore e)
  | .ok none => .ok none
  | .ok (some row) =>
    match trySubjectOfId row.subjectId with
    | .error e => .error (.invalidSubject row.subjectId row.id e)
    | .ok subject => .ok (some ⟨row.id, subject, row.activeRoles, row.version.toNat, row.expiresAt⟩)

def DbSessionStore.currentVersion (d : DbSessionStore U) (subject : S) : Except (DbSessionError U E) UInt64 :=
  match d.loadSessionMetadata newest (subjectId subject) with
  | .error e => .error (.sessionStore e)
  | .ok version => .ok (version.getD 0)

def DbSessionState.call (d : DbSessionState A C U) (event : ManagerEvent A C U S) :
    DbSessionState A C U × ManagerAnswer U S E :=
  match event.op with
  | .createSession subject activeRoles ttl => dbAlone newest event.input d (.createRoles subject activeRoles ttl)
  | .activateRole sessionId roleName => dbAlone newest event.input d (.activateLoad sessionId roleName)
  | .deactivateRole sessionId roleName => dbAlone newest event.input d (.deactivateLoad sessionId roleName)
  | .getSession sessionId => (d, some ((d.store.getSession sessionId).map .session))
  | .destroySession sessionId => dbOp d (.destroySession sessionId)
  | .currentVersion subject => (d, some ((d.store.currentVersion newest subject).map (fun v => .version v.toNat)))
  | .cleanupExpired => dbOp d (.cleanupExpired event.input.now)
  | .assignments store => dbOp d (.assignments store)
  | .constraints store => dbOp d (.constraints store)

def inMemoryMachine : Machine (SessionState A C U S) (ManagerEvent A C U S) (ManagerAnswer U S E) where
  step w event := (w.call event).1
  out w event := (w.call event).2

def dbMachine : Machine (DbSessionState A C U) (ManagerEvent A C U S) (ManagerAnswer U S E) where
  step d event := (d.call newest event).1
  out d event := (d.call newest event).2

end Calls

/-! ## What a call on its own comes to -/

section States
variable {A C U S E : Type} {w : SessionState A C U S} {d : DbSessionState A C U} {sessionId : U}

/-- The state while an activation holds the lock. -/
def SessionState.locked (w : SessionState A C U S) : SessionState A C U S := { w with lock := some 0 }

theorem unlock_locked (hfree : w.lock = none) : w.locked.unlock = w := by
  obtain ⟨store, constraintStore, sessions, subjectVersions, lock⟩ := w
  obtain rfl : lock = none := hfree
  rfl

variable [DecidableEq U]

def SessionState.withSession (w : SessionState A C U S) (session : RbacSession U S) : SessionState A C U S :=
  { w with sessions := w.sessions.insert session.id session }

/-- The row with the roles in place of its own. -/
def DbSessionState.withRoles (d : DbSessionState A C U) (sessionId : U) (stored : StoredRow) (activeRoles : Finset String) :
    DbSessionState A C U :=
  d.withRows (d.store.rows.insert sessionId { stored with activeRoles })

theorem updateRoles_of_stored {stored : StoredRow} (hreachable : d.store.reachable = true)
    (hstored : d.store.rows.get? sessionId = some stored) (activeRoles : Finset String) :
    commit (S := S) (E := E) d (d.store.updateRoles sessionId activeRoles) .unit =
      (d.withRoles sessionId stored activeRoles, .returned, some (.ok .unit)) := by
  unfold DbSessionStore.updateRoles
  rw [if_pos hreachable, hstored]
  rfl

/-- The row as a load answers it. -/
def StoredRow.loaded (stored : StoredRow) (sessionId : U) : SessionRow U :=
  ⟨sessionId, stored.subjectId, stored.activeRoles, 0, stored.expiresAt, stored.createdAt⟩

end States

section Gates
variable {A C U S P E : Type} [AssignmentStore A S P E] [ConstraintStore C E]

def dsdGate (constraintStore : Option C) (roles : Finset String) : Except (SessionManagerError E) Unit :=
  match constraintStore with
  | some cs => validateDsdWithStore roles cs
  | none => .ok ()

/-- The roles that a new session of the subject is given. -/
def createGate (store : A) (constraintStore : Option C) (subject : S) (requested : Finset String) :
    Except (SessionManagerError E) (Finset String) :=
  match rolesOf store subject with
  | .error e => .error (.store e)
  | .ok assigned =>
    let active := requested.filter (fun r => r ∈ assigned)
    (dsdGate constraintStore active).map (fun _ => active)

/-- Whether the role may be added to a session of the subject. -/
def activateGate (store : A) (constraintStore : Option C) (subject : S) (activeRoles : Finset String)
    (roleName : String) : Except (SessionManagerError E) Unit :=
  match rolesOf store subject with
  | .error e => .error (.store e)
  | .ok assigned =>
    if roleName ∈ assigned then dsdGate constraintStore (insert roleName activeRoles)
    else .error (.notFound ("role '" ++ roleName ++ "' not assigned to subject"))

variable [Subject S] [DecidableEq U] {w : SessionState A C U S} {input : StepInput U} {subject : S}
  {requested : Finset String} {ttl : Int} {sessionId : U} {roleName : String}

/-- The session that a creation of the in-memory manager stores. -/
def SessionState.newSession (w : SessionState A C U S) (input : StepInput U) (subject : S) (active : Finset String)
    (ttl : Int) : RbacSession U S :=
  ⟨input.uuid, subject, active, currentVersion w subject, input.now + ttl⟩

theorem alone_createVersion (hfree : w.lock = none) (fuel : Nat) (active : Finset String) :
    sessionProgram.alone 0 input (fuel + 2) w (.createVersion subject active ttl) =
      (w.withSession (w.newSession input subject active ttl),
        some (.ok (.created (w.newSession input subject active ttl)))) := by
  have hinsert : sessionProgram.next 0 input w (.createInsert (w.newSession input subject active ttl)) =
      (w.withSession (w.newSession input subject active ttl), .returned,
        some (.ok (.created (w.newSession input subject active ttl)))) := by
    have hopen : w.lock.isSome = false := by rw [hfree]; rfl
    simp only [sessionProgram, SessionCall.next, createInsertStep, hopen]
    rfl
  exact (Program.alone_of_none (fuel + 1) rfl).trans (Program.alone_of_answer fuel hinsert)

theorem call_createSession (hfree : w.lock = none) :
    w.call ⟨input, .createSession subject requested ttl⟩ =
      match createGate w.assignmentStore w.constraintStore subject requested with
      | .error e => (w, some (.error (.manager e)))
      | .ok active =>
        (w.withSession (w.newSession input subject active ttl),
          some (.ok (.created (w.newSession input subject active ttl)))) := by
  unfold createGate SessionState.call inMemoryAlone callSteps
  dsimp only
  cases hroles : rolesOf w.assignmentStore subject with
  | error e =>
    have hread : sessionProgram.next 0 input w (.createRoles subject requested ttl) =
        (w, .returned, some (.error (.store e))) := by
      simp only [sessionProgram, SessionCall.next, createRolesStep, hroles]
    rw [Program.alone_of_answer _ hread]
    rfl
  | ok assigned =>
    dsimp only
    cases hcs : w.constraintStore with
    | none =>
      have hread : sessionProgram.next 0 input w (.createRoles subject requested ttl) =
          (w, .createVersion subject (requested.filter (fun r => r ∈ assigned)) ttl, none) := by
        simp only [sessionProgram, SessionCall.next, createRolesStep, hroles, hcs]
      rw [Program.alone_of_none _ hread, alone_createVersion hfree]
      rfl
    | some cs =>
      have hread : sessionProgram.next 0 input w (.createRoles subject requested ttl) =
          (w, .createConstraints subject (requested.filter (fun r => r ∈ assigned)) ttl, none) := by
        simp only [sessionProgram, SessionCall.next, createRolesStep, hroles, hcs]
      rw [Program.alone_of_none _ hread, dsdGate]
      cases hvalid : validateDsdWithStore (requested.filter (fun r => r ∈ assigned)) cs with
      | error e =>
        have hcheck : sessionProgram.next 0 input w
            (.createConstraints subject (requested.filter (fun r => r ∈ assigned)) ttl) =
              (w, .returned, some (.error e)) := by
          simp only [sessionProgram, SessionCall.next, createConstraintsStep, hcs, hvalid]
        rw [Program.alone_of_answer _ hcheck]
        rfl
      | ok u =>
        have hcheck : sessionProgram.next 0 input w
            (.createConstraints subject (requested.filter (fun r => r ∈ assigned)) ttl) =
              (w, .createVersion subject (requested.filter (fun r => r ∈ assigned)) ttl, none) := by
          simp only [sessionProgram, SessionCall.next, createConstraintsStep, hcs, hvalid]
        rw [Program.alone_of_none _ hcheck, alone_createVersion hfree]
        rfl

theorem alone_activateRoles (hfree : w.lock = none) (fuel : Nat) (session : RbacSession U S) :
    sessionProgram.alone 0 input (fuel + 2) w.locked (.activateRoles session roleName) =
      match activateGate w.assignmentStore w.constraintStore session.subject session.activeRoles roleName with
      | .error e => (w, some (.error e))
      | .ok () => (w.activate session roleName, some (.ok .unit)) := by
  have hstore : w.locked.assignmentStore = w.assignmentStore := rfl
  have hconstraints : w.locked.constraintStore = w.constraintStore := rfl
  have hunlock := unlock_locked hfree
  unfold activateGate
  cases hroles : rolesOf w.assignmentStore session.subject with
  | error e =>
    have hread : sessionProgram.next 0 input w.locked (.activateRoles session roleName) =
        (w, .returned, some (.error (.store e))) := by
      simp only [sessionProgram, SessionCall.next, activateRolesStep, hstore, hroles, hunlock]
    rw [Program.alone_of_answer _ hread]
  | ok assigned =>
    dsimp only
    by_cases hassigned : roleName ∈ assigned
    · rw [if_pos hassigned]
      cases hcs : w.constraintStore with
      | none =>
        have hread : sessionProgram.next 0 input w.locked (.activateRoles session roleName) =
            (w.activate session roleName, .returned, some (.ok .unit)) := by
          simp only [sessionProgram, SessionCall.next, activateRolesStep, hstore, hroles, hassigned, if_true, hconstraints,
            hcs]
          rfl
        rw [Program.alone_of_answer _ hread]
        rfl
      | some cs =>
        have hread : sessionProgram.next 0 input w.locked (.activateRoles session roleName) =
            (w.locked, .activateConstraints session roleName, none) := by
          simp only [sessionProgram, SessionCall.next, activateRolesStep, hstore, hroles, hassigned, if_true, hconstraints,
            hcs]
        rw [Program.alone_of_none _ hread, dsdGate]
        cases hvalid : validateDsdWithStore (insert roleName session.activeRoles) cs with
        | error e =>
          have hcheck : sessionProgram.next 0 input w.locked (.activateConstraints session roleName) =
              (w, .returned, some (.error e)) := by
            simp only [sessionProgram, SessionCall.next, activateConstraintsStep, hconstraints, hcs, hvalid, hunlock]
          rw [Program.alone_of_answer _ hcheck]
        | ok u =>
          have hcheck : sessionProgram.next 0 input w.locked (.activateConstraints session roleName) =
              (w.activate session roleName, .returned, some (.ok .unit)) := by
            simp only [sessionProgram, SessionCall.next, activateConstraintsStep, hconstraints, hcs, hvalid]
            rfl
          rw [Program.alone_of_answer _ hcheck]
    · have hread : sessionProgram.next 0 input w.locked (.activateRoles session roleName) =
          (w, .returned, some (.error (.notFound ("role '" ++ roleName ++ "' not assigned to subject")))) := by
        simp only [sessionProgram, SessionCall.next, activateRolesStep, hstore, hroles, hassigned, if_false, hunlock]
      rw [if_neg hassigned, Program.alone_of_answer _ hread]

theorem call_activateRole (hfree : w.lock = none) :
    w.call ⟨input, .activateRole sessionId roleName⟩ =
      match w.sessions.get? sessionId with
      | none => (w, some (.error (.manager .sessionNotFound)))
      | some session =>
        if input.now > session.expiresAt then (w, some (.error (.manager .sessionExpired)))
        else if roleName ∈ session.activeRoles then (w, some (.ok .unit))
        else
          match activateGate w.assignmentStore w.constraintStore session.subject session.activeRoles roleName with
          | .error e => (w, some (.error (.manager e)))
          | .ok () => (w.activate session roleName, some (.ok .unit)) := by
  have hopen : w.lock.isSome = false := by rw [hfree]; rfl
  unfold SessionState.call inMemoryAlone callSteps
  dsimp only
  cases hsession : w.sessions.get? sessionId with
  | none =>
    have hlook : sessionProgram.next 0 input w (.activateLookup sessionId roleName) =
        (w, .returned, some (.error .sessionNotFound)) := by
      simp only [sessionProgram, SessionCall.next, activateLookupStep, hopen, hsession, Bool.false_eq_true, if_false]
    rw [Program.alone_of_answer _ hlook]
    rfl
  | some session =>
    have hexpired : (session.isExpired input.now = true) ↔ input.now > session.expiresAt := decide_eq_true_iff
    dsimp only
    split
    · rename_i hend
      have hlook : sessionProgram.next 0 input w (.activateLookup sessionId roleName) =
          (w, .returned, some (.error .sessionExpired)) := by
        simp only [sessionProgram, SessionCall.next, activateLookupStep, hopen, hsession, Bool.false_eq_true, if_false,
          if_pos (hexpired.2 hend)]
      rw [Program.alone_of_answer _ hlook]
      rfl
    · rename_i hlive
      split
      · rename_i hactive
        have hlook : sessionProgram.next 0 input w (.activateLookup sessionId roleName) =
            (w, .returned, some (.ok .unit)) := by
          simp only [sessionProgram, SessionCall.next, activateLookupStep, hopen, hsession, Bool.false_eq_true, if_false,
            if_neg (fun h => hlive (hexpired.1 h)), if_pos hactive]
        rw [Program.alone_of_answer _ hlook]
        rfl
      · rename_i hnew
        have hlook : sessionProgram.next 0 input w (.activateLookup sessionId roleName) =
            (w.locked, .activateRoles session roleName, none) := by
          simp only [sessionProgram, SessionCall.next, activateLookupStep, hopen, hsession, Bool.false_eq_true, if_false,
            if_neg (fun h => hlive (hexpired.1 h)), if_neg hnew]
          rfl
        rw [Program.alone_of_none _ hlook, alone_activateRoles hfree]
        cases activateGate w.assignmentStore w.constraintStore session.subject session.activeRoles roleName <;> rfl

end Gates

section DbCalls
variable {A C U S P E : Type} [AssignmentStore A S P E] [ConstraintStore C E] [Subject S] [SubjectOfId S] [DecidableEq U]
variable {newest : List StoredRow → Option StoredRow} {d : DbSessionState A C U} {input : StepInput U} {subject : S}
  {requested active : Finset String} {ttl : Int} {sessionId : U} {roleName : String}

/-- The row that a creation saves. -/
def newRow (input : StepInput U) (subject : S) (active : Finset String) (ttl : Int) : StoredRow :=
  ⟨subjectId subject, active, 0, input.now + ttl, input.now⟩

theorem alone_createSave (hreachable : d.store.reachable = true) (hnew : d.store.rows.get? input.uuid = none)
    (fuel : Nat) (active : Finset String) :
    (dbSessionProgram newest).alone 0 input (fuel + 1) d (createSaveCall input subject active ttl) =
      (d.withRows (d.store.rows.insert input.uuid (newRow input subject active ttl)),
        some (.ok (.created ⟨input.uuid, subject, active, 0, input.now + ttl⟩))) := by
  have hsave : d.store.saveSession ⟨input.uuid, subjectId subject, active, 0, input.now + ttl, input.now⟩ =
      .ok { d.store with rows := d.store.rows.insert input.uuid (newRow input subject active ttl) } :=
    if_pos ⟨hreachable, hnew⟩
  have hstep : (dbSessionProgram newest).next 0 input d (createSaveCall input subject active ttl) =
      (d.withRows (d.store.rows.insert input.uuid (newRow input subject active ttl)), .returned,
        some (.ok (.created ⟨input.uuid, subject, active, 0, input.now + ttl⟩))) := by
    simp only [dbSessionProgram, createSaveCall, DbSessionCall.next, createSaveStep, hsave]
    rfl
  exact Program.alone_of_answer fuel hstep

theorem dbCall_createSession (hreachable : d.store.reachable = true) (hnew : d.store.rows.get? input.uuid = none) :
    d.call newest ⟨input, .createSession subject requested ttl⟩ =
      match createGate d.assignmentStore d.constraintStore subject requested with
      | .error e => (d, some (.error (.manager e)))
      | .ok active =>
        (d.withRows (d.store.rows.insert input.uuid (newRow input subject active ttl)),
          some (.ok (.created ⟨input.uuid, subject, active, 0, input.now + ttl⟩))) := by
  unfold createGate DbSessionState.call dbAlone callSteps
  dsimp only
  cases hroles : rolesOf d.assignmentStore subject with
  | error e =>
    have hread : (dbSessionProgram newest).next 0 input d (.createRoles subject requested ttl) =
        (d, .returned, some (.error (.manager (.store e)))) := by
      simp only [dbSessionProgram, DbSessionCall.next, createRolesDbStep, hroles, fail]
    rw [Program.alone_of_answer _ hread]
    rfl
  | ok assigned =>
    dsimp only
    cases hcs : d.constraintStore with
    | none =>
      have hread : (dbSessionProgram newest).next 0 input d (.createRoles subject requested ttl) =
          (d, createSaveCall input subject (requested.filter (fun r => r ∈ assigned)) ttl, none) := by
        simp only [dbSessionProgram, DbSessionCall.next, createRolesDbStep, hroles, hcs, goOn]
      rw [Program.alone_of_none _ hread, alone_createSave hreachable hnew]
      rfl
    | some cs =>
      have hread : (dbSessionProgram newest).next 0 input d (.createRoles subject requested ttl) =
          (d, .createConstraints subject (requested.filter (fun r => r ∈ assigned)) ttl, none) := by
        simp only [dbSessionProgram, DbSessionCall.next, createRolesDbStep, hroles, hcs, goOn]
      rw [Program.alone_of_none _ hread, dsdGate]
      cases hvalid : validateDsdWithStore (requested.filter (fun r => r ∈ assigned)) cs with
      | error e =>
        have hcheck : (dbSessionProgram newest).next 0 input d
            (.createConstraints subject (requested.filter (fun r => r ∈ assigned)) ttl) =
              (d, .returned, some (.error (.manager e))) := by
          simp only [dbSessionProgram, DbSessionCall.next, createConstraintsDbStep, hcs, hvalid, fail]
        rw [Program.alone_of_answer _ hcheck]
        rfl
      | ok u =>
        have hcheck : (dbSessionProgram newest).next 0 input d
            (.createConstraints subject (requested.filter (fun r => r ∈ assigned)) ttl) =
              (d, createSaveCall input subject (requested.filter (fun r => r ∈ assigned)) ttl, none) := by
          simp only [dbSessionProgram, DbSessionCall.next, createConstraintsDbStep, hcs, hvalid, goOn]
        rw [Program.alone_of_none _ hcheck, alone_createSave hreachable hnew]
        rfl

theorem alone_activateRolesDb {stored : StoredRow} (hreachable : d.store.reachable = true)
    (hstored : d.store.rows.get? sessionId = some stored) (fuel : Nat) :
    (dbSessionProgram newest).alone 0 input (fuel + 3) d (.activateRoles (stored.loaded sessionId) subject roleName) =
      match activateGate d.assignmentStore d.constraintStore subject stored.activeRoles roleName with
      | .error e => (d, some (.error (.manager e)))
      | .ok () => (d.withRoles sessionId stored (insert roleName stored.activeRoles), some (.ok .unit)) := by
  have hupdate : ∀ fuel, (dbSessionProgram newest).alone 0 input (fuel + 1) d
      (.activateUpdate (stored.loaded sessionId) roleName) =
        (d.withRoles sessionId stored (insert roleName stored.activeRoles), some (.ok .unit)) :=
    fun fuel => Program.alone_of_answer fuel (updateRoles_of_stored hreachable hstored _)
  unfold activateGate
  cases hroles : rolesOf d.assignmentStore subject with
  | error e =>
    have hread : (dbSessionProgram newest).next 0 input d (.activateRoles (stored.loaded sessionId) subject roleName) =
        (d, .returned, some (.error (.manager (.store e)))) := by
      simp only [dbSessionProgram, DbSessionCall.next, activateRolesDbStep, hroles, fail]
    rw [Program.alone_of_answer _ hread]
  | ok assigned =>
    dsimp only
    by_cases hassigned : roleName ∈ assigned
    · rw [if_pos hassigned]
      cases hcs : d.constraintStore with
      | none =>
        have hread : (dbSessionProgram newest).next 0 input d
            (.activateRoles (stored.loaded sessionId) subject roleName) =
              (d, .activateUpdate (stored.loaded sessionId) roleName, none) := by
          simp only [dbSessionProgram, DbSessionCall.next, activateRolesDbStep, hroles, hassigned, if_true, hcs, goOn]
        rw [Program.alone_of_none _ hread, hupdate]
        rfl
      | some cs =>
        have hread : (dbSessionProgram newest).next 0 input d
            (.activateRoles (stored.loaded sessionId) subject roleName) =
              (d, .activateConstraints (stored.loaded sessionId) roleName, none) := by
          simp only [dbSessionProgram, DbSessionCall.next, activateRolesDbStep, hroles, hassigned, if_true, hcs, goOn]
        rw [Program.alone_of_none _ hread, dsdGate]
        cases hvalid : validateDsdWithStore (insert roleName stored.activeRoles) cs with
        | error e =>
          have hcheck : (dbSessionProgram newest).next 0 input d
              (.activateConstraints (stored.loaded sessionId) roleName) = (d, .returned, some (.error (.manager e))) := by
            simp only [dbSessionProgram, DbSessionCall.next, activateConstraintsDbStep, hcs, StoredRow.loaded, hvalid, fail]
          rw [Program.alone_of_answer _ hcheck]
        | ok u =>
          have hcheck : (dbSessionProgram newest).next 0 input d
              (.activateConstraints (stored.loaded sessionId) roleName) =
                (d, .activateUpdate (stored.loaded sessionId) roleName, none) := by
            simp only [dbSessionProgram, DbSessionCall.next, activateConstraintsDbStep, hcs, StoredRow.loaded, hvalid, goOn]
          rw [Program.alone_of_none _ hcheck, hupdate]
    · have hread : (dbSessionProgram newest).next 0 input d (.activateRoles (stored.loaded sessionId) subject roleName) =
          (d, .returned, some (.error (.manager (.notFound ("role '" ++ roleName ++ "' not assigned to subject"))))) := by
        simp only [dbSessionProgram, DbSessionCall.next, activateRolesDbStep, hroles, hassigned, if_false, fail]
      rw [if_neg hassigned, Program.alone_of_answer _ hread]

theorem dbCall_activateRole (hreachable : d.store.reachable = true) (hreads : ReadsSessions d.store.reader) :
    d.call newest ⟨input, .activateRole sessionId roleName⟩ =
      match d.store.rows.get? sessionId with
      | none => (d, some (.error (.manager .sessionNotFound)))
      | some stored =>
        if input.now > stored.expiresAt then (d, some (.error (.manager .sessionExpired)))
        else if roleName ∈ stored.activeRoles then (d, some (.ok .unit))
        else
          match (trySubjectOfId stored.subjectId : Except String S) with
          | .error e => (d, some (.error (.invalidSubject stored.subjectId sessionId e)))
          | .ok subject =>
            match activateGate d.assignmentStore d.constraintStore subject stored.activeRoles roleName with
            | .error e => (d, some (.error (.manager e)))
            | .ok () => (d.withRoles sessionId stored (insert roleName stored.activeRoles), some (.ok .unit)) := by
  have hload := DbSessionStore.loadSession_of_reads hreachable hreads sessionId
  unfold DbSessionState.call dbAlone callSteps
  dsimp only
  cases hstored : d.store.rows.get? sessionId with
  | none =>
    have hlook : (dbSessionProgram newest).next 0 input d (.activateLoad sessionId roleName) =
        (d, .returned, some (.error (.manager .sessionNotFound))) := by
      simp only [dbSessionProgram, DbSessionCall.next, activateLoadStep, hload, loadedRow, hstored, Option.map_none, fail]
    rw [Program.alone_of_answer _ hlook]
    rfl
  | some stored =>
    dsimp only
    split
    · rename_i hend
      have hlook : (dbSessionProgram newest).next 0 input d (.activateLoad sessionId roleName) =
          (d, .returned, some (.error (.manager .sessionExpired))) := by
        simp only [dbSessionProgram, DbSessionCall.next, activateLoadStep, hload, loadedRow, hstored, Option.map_some,
          if_pos hend, fail]
      rw [Program.alone_of_answer _ hlook]
      rfl
    · rename_i hlive
      split
      · rename_i hactive
        have hlook : (dbSessionProgram newest).next 0 input d (.activateLoad sessionId roleName) =
            (d, .returned, some (.ok .unit)) := by
          simp only [dbSessionProgram, DbSessionCall.next, activateLoadStep, hload, loadedRow, hstored, Option.map_some,
            if_neg hlive, if_pos hactive]
        rw [Program.alone_of_answer _ hlook]
        rfl
      · rename_i hnew
        cases hsubject : (trySubjectOfId stored.subjectId : Except String S) with
        | error e =>
          have hlook : (dbSessionProgram newest).next 0 input d (.activateLoad sessionId roleName) =
              (d, .returned, some (.error (.invalidSubject stored.subjectId sessionId e))) := by
            simp only [dbSessionProgram, DbSessionCall.next, activateLoadStep, hload, loadedRow, hstored, Option.map_some,
              if_neg hlive, if_neg hnew, hsubject, fail]
          rw [Program.alone_of_answer _ hlook]
          rfl
        | ok subject =>
          have hlook : (dbSessionProgram newest).next 0 input d (.activateLoad sessionId roleName) =
              (d, .activateRoles (stored.loaded sessionId) subject roleName, none) := by
            simp only [dbSessionProgram, DbSessionCall.next, activateLoadStep, hload, loadedRow, hstored, Option.map_some,
              if_neg hlive, if_neg hnew, hsubject, goOn]
            rfl
          rw [Program.alone_of_none _ hlook, alone_activateRolesDb hreachable hstored]
          dsimp only
          cases activateGate d.assignmentStore d.constraintStore subject stored.activeRoles roleName <;> rfl

theorem dbCall_deactivateRole (hreachable : d.store.reachable = true) (hreads : ReadsSessions d.store.reader) :
    d.call (S := S) newest ⟨input, .deactivateRole sessionId roleName⟩ =
      match d.store.rows.get? sessionId with
      | none => (d, some (.error (.manager .sessionNotFound)))
      | some stored =>
        if input.now > stored.expiresAt then (d, some (.error (.manager .sessionExpired)))
        else (d.withRoles sessionId stored (stored.activeRoles.erase roleName), some (.ok .unit)) := by
  have hload := DbSessionStore.loadSession_of_reads hreachable hreads sessionId
  unfold DbSessionState.call dbAlone callSteps
  dsimp only
  cases hstored : d.store.rows.get? sessionId with
  | none =>
    have hlook : (dbSessionProgram newest).next 0 input d (.deactivateLoad sessionId roleName) =
        (d, .returned, some (.error (.manager .sessionNotFound))) := by
      simp only [dbSessionProgram, DbSessionCall.next, deactivateLoadStep, hload, loadedRow, hstored, Option.map_none, fail]
    rw [Program.alone_of_answer _ hlook]
    rfl
  | some stored =>
    dsimp only
    split
    · rename_i hend
      have hlook : (dbSessionProgram newest).next 0 input d (.deactivateLoad sessionId roleName) =
          (d, .returned, some (.error (.manager .sessionExpired))) := by
        simp only [dbSessionProgram, DbSessionCall.next, deactivateLoadStep, hload, loadedRow, hstored, Option.map_some,
          if_pos hend, fail]
      rw [Program.alone_of_answer _ hlook]
      rfl
    · rename_i hlive
      have hlook : (dbSessionProgram newest).next 0 input d (.deactivateLoad sessionId roleName) =
          (d, .deactivateUpdate (stored.loaded sessionId) roleName, none) := by
        simp only [dbSessionProgram, DbSessionCall.next, deactivateLoadStep, hload, loadedRow, hstored, Option.map_some,
          if_neg hlive, goOn]
        rfl
      have hupdate : (dbSessionProgram newest).next 0 input d (.deactivateUpdate (stored.loaded sessionId) roleName) =
          (d.withRoles sessionId stored (stored.activeRoles.erase roleName), .returned, some (.ok .unit)) :=
        updateRoles_of_stored hreachable hstored _
      rw [Program.alone_of_none _ hlook, Program.alone_of_answer _ hupdate]
      rfl

end DbCalls

end Rbac
end Kirino
