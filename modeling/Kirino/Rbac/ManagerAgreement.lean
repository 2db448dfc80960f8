import Kirino.Rbac.ManagerCalls
import Kirino.Rbac.Store.Memory
/-!
# ManagerAgreement — the two session managers are one (`rbac/session/mod.rs`, `rbac/session/db.rs`)

Called one call after another, on the same assignment and constraint stores, with the same clock and identifiers, the
in-memory manager and the one over a table whose loads answer the saved row give the same answers, as long as no version is bumped and no subject is
revoked, which the two are documented to do differently (`managers_agree`).  A session here and a row there are related
when they have the same subject, roles and end, and the stored subject id converts back to the subject.
-/
namespace Kirino
namespace Rbac

open Lib (HashMap Machine RowReader)
open DbSessionStore (loadedRow)

section Simulation
variable {A C U S P E : Type} [AssignmentStore A S P E] [ConstraintStore C E] [Subject S] [SubjectOfId S] [DecidableEq U]

/-- The stored subject id converts back to the subject. -/
def ConvertsBack (subject : S) : Prop := trySubjectOfId (subjectId subject) = .ok subject

/-- A session and the row of the same session. -/
structure RowOf (id : U) (session : RbacSession U S) (stored : StoredRow) : Prop where
  id : session.id = id
  version : session.version = 0
  subject : ConvertsBack session.subject
  subjectId : stored.subjectId = subjectId session.subject
  activeRoles : stored.activeRoles = session.activeRoles
  expiresAt : stored.expiresAt = session.expiresAt
  stored_version : stored.version = 0

/-- The states of the two managers after the same calls. -/
structure Simulates (w : SessionState A C U S) (d : DbSessionState A C U) : Prop where
  unlocked : w.lock = none
  reachable : d.store.reachable = true
  reads : ReadsSessions d.store.reader
  assignments : d.assignmentStore = w.assignmentStore
  constraints : d.constraintStore = w.constraintStore
  versions : w.subjectVersions = HashMap.empty
  rows : ∀ id, Option.Rel (RowOf id) (w.sessions.get? id) (d.store.rows.get? id)

variable {w : SessionState A C U S} {d : DbSessionState A C U} {newest : List StoredRow → Option StoredRow}
  {input : StepInput U} {subject : S} {requested active : Finset String} {ttl : Int} {sessionId : U} {roleName : String}

/-- The two managers are in step at the event: they come to related states and give the same answer. -/
def InStep (newest : List StoredRow → Option StoredRow) (w : SessionState A C U S) (d : DbSessionState A C U)
    (event : ManagerEvent A C U S) : Prop :=
  Simulates (w.call event).1 (d.call newest event).1 ∧ (w.call event).2 = (d.call newest event).2

theorem Simulates.get?_cases (h : Simulates w d) (id : U) :
    (w.sessions.get? id = none ∧ d.store.rows.get? id = none) ∨
      ∃ session stored, w.sessions.get? id = some session ∧ d.store.rows.get? id = some stored ∧
        RowOf id session stored := by
  have hrel := h.rows id
  cases hs : w.sessions.get? id with
  | none =>
    cases hd : d.store.rows.get? id with
    | none => exact Or.inl ⟨rfl, rfl⟩
    | some stored =>
      rw [hs, hd] at hrel
      cases hrel
  | some session =>
    cases hd : d.store.rows.get? id with
    | none =>
      rw [hs, hd] at hrel
      cases hrel
    | some stored =>
      rw [hs, hd] at hrel
      cases hrel with
      | some hrow => exact Or.inr ⟨session, stored, rfl, rfl, hrow⟩

theorem Simulates.isSome_lock (h : Simulates w d) : w.lock.isSome = false := by
  rw [h.unlocked]
  rfl

/-- No shared call bumps a version. -/
theorem Simulates.currentVersion_eq (h : Simulates w d) (subject : S) : currentVersion w subject = 0 := by
  unfold currentVersion
  rw [h.versions]
  rfl

omit [DecidableEq U] in
theorem RowOf.trySubjectOfId_eq {id : U} {session : RbacSession U S} {stored : StoredRow} (h : RowOf id session stored) :
    (trySubjectOfId stored.subjectId : Except String S) = .ok session.subject :=
  h.subjectId ▸ h.subject

/-- A session and its row, written on both sides. -/
theorem Simulates.insert (h : Simulates w d) {session : RbacSession U S} {stored : StoredRow}
    (hrow : RowOf session.id session stored) :
    Simulates (w.withSession session) (d.withRows (d.store.rows.insert session.id stored)) where
  unlocked := h.unlocked
  reachable := h.reachable
  reads := h.reads
  assignments := h.assignments
  constraints := h.constraints
  versions := h.versions
  rows id := by
    show Option.Rel (RowOf id) ((w.sessions.insert session.id session).get? id)
      ((d.store.rows.insert session.id stored).get? id)
    rw [HashMap.get?_insert, HashMap.get?_insert]
    split
    · rename_i hid
      exact .some (hid ▸ hrow)
    · exact h.rows id

theorem Simulates.retain (h : Simulates w d) {f : U → RbacSession U S → Bool} {g : U → StoredRow → Bool}
    (hfg : ∀ id session stored, RowOf id session stored → f id session = g id stored) :
    Simulates { w with sessions := w.sessions.retain f } (d.withRows (d.store.rows.retain g)) where
  unlocked := h.unlocked
  reachable := h.reachable
  reads := h.reads
  assignments := h.assignments
  constraints := h.constraints
  versions := h.versions
  rows id := by
    show Option.Rel (RowOf id) ((w.sessions.retain f).get? id) ((d.store.rows.retain g).get? id)
    rw [HashMap.get?_retain, HashMap.get?_retain]
    rcases h.get?_cases id with ⟨hs, hd⟩ | ⟨session, stored, hs, hd, hrow⟩
    · rw [hs, hd]
      exact .none
    · rw [hs, hd, Option.filter_some, Option.filter_some, hfg id session stored hrow]
      split
      · exact .some hrow
      · exact .none

theorem Simulates.len_eq (h : Simulates w d) : w.sessions.len = d.store.rows.len := by
  refine Nat.le_antisymm (HashMap.len_le_of_keys_across _ _ (fun id session hs => ?_))
    (HashMap.len_le_of_keys_across _ _ (fun id stored hd => ?_))
  · rcases h.get?_cases id with ⟨hs', -⟩ | ⟨-, stored, -, hd, -⟩
    · cases hs'.symm.trans hs
    · exact ⟨stored, hd⟩
  · rcases h.get?_cases id with ⟨-, hd'⟩ | ⟨session, -, hs, -, -⟩
    · cases hd'.symm.trans hd
    · exact ⟨session, hs⟩

theorem inStep_createSession (h : Simulates w d) (hnew : w.sessions.get? input.uuid = none)
    (hsubject : ConvertsBack subject) : InStep newest w d ⟨input, .createSession subject requested ttl⟩ := by
  have hrow : d.store.rows.get? input.uuid = none := by
    rcases h.get?_cases input.uuid with ⟨-, hd⟩ | ⟨session, -, hs, -, -⟩
    · exact hd
    · cases hnew.symm.trans hs
  unfold InStep
  rw [call_createSession h.unlocked, dbCall_createSession h.reachable hrow, h.assignments, h.constraints]
  cases createGate w.assignmentStore w.constraintStore subject requested with
  | error e => exact ⟨h, rfl⟩
  | ok active =>
    have hsession : w.newSession input subject active ttl = ⟨input.uuid, subject, active, 0, input.now + ttl⟩ := by
      unfold SessionState.newSession
      rw [h.currentVersion_eq]
    dsimp only
    rw [hsession]
    exact ⟨h.insert ⟨rfl, rfl, hsubject, rfl, rfl, rfl, rfl⟩, rfl⟩

/-- A role list, written on both sides. -/
theorem Simulates.withRoles (h : Simulates w d) {session : RbacSession U S} {stored : StoredRow} {id : U}
    (hrow : RowOf id session stored) (activeRoles : Finset String) :
    Simulates (w.withSession { session with activeRoles }) (d.withRoles id stored activeRoles) := by
  obtain rfl := hrow.id
  exact h.insert ⟨rfl, hrow.version, hrow.subject, hrow.subjectId, rfl, hrow.expiresAt, hrow.stored_version⟩

theorem inStep_activateRole (h : Simulates w d) : InStep newest w d ⟨input, .activateRole sessionId roleName⟩ := by
  unfold InStep
  rw [call_activateRole h.unlocked, dbCall_activateRole h.reachable h.reads]
  rcases h.get?_cases sessionId with ⟨hs, hd⟩ | ⟨session, stored, hs, hd, hrow⟩
  · rw [hs, hd]
    exact ⟨h, rfl⟩
  · rw [hs, hd]
    dsimp only
    rw [hrow.expiresAt, hrow.activeRoles, hrow.trySubjectOfId_eq, h.assignments, h.constraints]
    split
    · exact ⟨h, rfl⟩
    · split
      · exact ⟨h, rfl⟩
      · dsimp only
        cases activateGate w.assignmentStore w.constraintStore session.subject session.activeRoles roleName with
        | error e => exact ⟨h, rfl⟩
        | ok u =>
          have hactivate : w.activate session roleName =
              w.withSession { session with activeRoles := insert roleName session.activeRoles } := by
            unfold SessionState.activate SessionState.withSession
            rw [h.unlocked]
          dsimp only
          rw [hactivate]
          exact ⟨h.withRoles hrow _, rfl⟩

theorem inStep_deactivateRole (h : Simulates w d) : InStep newest w d ⟨input, .deactivateRole sessionId roleName⟩ := by
  have hcall : w.call (E := E) ⟨input, .deactivateRole sessionId roleName⟩ =
      (((w.deactivateRole input.now sessionId roleName : SessionState A C U S × SessionAnswer U S E)).1,
        sessionAnswer (some (w.deactivateRole input.now sessionId roleName).2)) := by
    unfold SessionState.call inMemoryOp SessionOp.run
    simp only [h.isSome_lock, Bool.false_eq_true, if_false]
  unfold InStep
  rw [hcall, dbCall_deactivateRole h.reachable h.reads]
  unfold SessionState.deactivateRole
  rcases h.get?_cases sessionId with ⟨hs, hd⟩ | ⟨session, stored, hs, hd, hrow⟩
  · rw [hs, hd]
    exact ⟨h, rfl⟩
  · have hexpired : session.isExpired input.now = true ↔ input.now > session.expiresAt := decide_eq_true_iff
    rw [hs, hd]
    dsimp only
    rw [hrow.expiresAt, hrow.activeRoles]
    by_cases hend : input.now > session.expiresAt
    · rw [if_pos (hexpired.2 hend), if_pos hend]
      exact ⟨h, rfl⟩
    · rw [if_neg (fun he => hend (hexpired.1 he)), if_neg hend]
      have hwith := h.withRoles hrow (session.activeRoles.erase roleName)
      obtain rfl := hrow.id
      exact ⟨hwith, rfl⟩

theorem inStep_getSession (h : Simulates w d) : InStep newest w d ⟨input, .getSession sessionId⟩ := by
  refine ⟨h, ?_⟩
  have hfound : (d.store.getSession sessionId : Except (DbSessionError U E) (Option (RbacSession U S))) =
      .ok (w.sessions.get? sessionId) := by
    unfold DbSessionStore.getSession
    rw [DbSessionStore.loadSession_of_reads h.reachable h.reads, loadedRow]
    rcases h.get?_cases sessionId with ⟨hs, hd⟩ | ⟨session, stored, hs, hd, hrow⟩
    · rw [hs, hd]
      rfl
    · have hsubject := hrow.trySubjectOfId_eq
      obtain ⟨id, subject, activeRoles, version, expiresAt⟩ := session
      obtain ⟨rfl, rfl, -, -, rfl, rfl, -⟩ := hrow
      rw [hs, hd, Option.map_some]
      dsimp only
      rw [hsubject]
      rfl
  unfold SessionState.call DbSessionState.call
  dsimp only
  rw [hfound]
  rfl

theorem inStep_destroySession (h : Simulates w d) : InStep newest w d ⟨input, .destroySession sessionId⟩ := by
  have hdelete : d.store.deleteSession sessionId = .ok { d.store with rows := d.store.rows.remove sessionId } :=
    if_pos h.reachable
  have hremove := h.retain (f := fun id _ => decide (id ≠ sessionId)) (g := fun id _ => decide (id ≠ sessionId))
    (fun _ _ _ _ => rfl)
  unfold InStep SessionState.call DbSessionState.call inMemoryOp dbOp SessionOp.run DbSessionOp.run
  dsimp only
  rw [h.isSome_lock, hdelete]
  exact ⟨hremove, rfl⟩

theorem inStep_cleanupExpired (h : Simulates w d) : InStep newest w d ⟨input, .cleanupExpired⟩ := by
  have hcleanup : d.store.cleanupExpired input.now =
      .ok ({ d.store with rows := d.store.rows.retain (fun _ row => decide (¬ row.expiresAt < input.now)) },
        d.store.rows.len - (d.store.rows.retain (fun _ row => decide (¬ row.expiresAt < input.now))).len) :=
    if_pos h.reachable
  have hretain := h.retain (f := fun _ s => !s.isExpired input.now) (g := fun _ row => decide (¬ row.expiresAt < input.now))
    (fun id session stored hrow => by rw [hrow.expiresAt, decide_not]; rfl)
  have hlen : (w.sessions.retain (fun _ s => !s.isExpired input.now)).len =
      (d.store.rows.retain (fun _ row => decide (¬ row.expiresAt < input.now))).len := hretain.len_eq
  unfold InStep SessionState.call DbSessionState.call inMemoryOp dbOp SessionOp.run DbSessionOp.run
  dsimp only
  rw [h.isSome_lock, hcleanup]
  refine ⟨hretain, ?_⟩
  simp [sessionAnswer, dbSessionAnswer, SessionReply.reply, DbSessionReply.reply, h.len_eq, hlen]

theorem inStep_currentVersion (hnewest : NewestFirst newest) (h : Simulates w d) :
    InStep newest w d ⟨input, .currentVersion subject⟩ := by
  refine ⟨h, ?_⟩
  have hstored : (d.store.currentVersion newest subject : Except (DbSessionError U E) UInt64) = .ok 0 := by
    unfold DbSessionStore.currentVersion
    rw [DbSessionStore.loadSessionMetadata_of_reads newest h.reachable h.reads]
    cases hfirst : newest (DbSessionStore.ofSubject d.store.rows (subjectId subject)) with
    | none => rfl
    | some row =>
      have hmem := List.mem_of_mem_filter (hnewest.mem _ _ hfirst)
      obtain ⟨entry, hentry, rfl⟩ := List.mem_map.1 hmem
      have hget := (d.store.rows.get?_eq_some_iff entry.1 entry.2).2 hentry
      rcases h.get?_cases entry.1 with ⟨-, hd⟩ | ⟨session, stored, -, hd, hrow⟩
      · cases hd.symm.trans hget
      · obtain rfl := Option.some.inj (hd.symm.trans hget)
        rw [Option.map_some, hrow.stored_version]
        rfl
  unfold SessionState.call DbSessionState.call
  dsimp only
  rw [hstored, h.currentVersion_eq]
  rfl

/-- The identifier of the session that the event creates. -/
def ManagerEvent.creates (event : ManagerEvent A C U S) : Option U :=
  match event.op with
  | .createSession _ _ _ => some event.input.uuid
  | _ => none

/-- A creation draws a new identifier, for a subject whose id converts back. -/
def Fits (w : SessionState A C U S) (event : ManagerEvent A C U S) : Prop :=
  ∀ subject requested ttl, event.op = .createSession subject requested ttl →
    w.sessions.get? event.input.uuid = none ∧ ConvertsBack subject

/-- **At every event the managers are in step.** -/
theorem inStep (hnewest : NewestFirst newest) (h : Simulates w d) {event : ManagerEvent A C U S} (hfits : Fits w event) :
    InStep newest w d event := by
  obtain ⟨input, op⟩ := event
  cases op with
  | createSession subject requested ttl =>
    obtain ⟨hnew, hsubject⟩ := hfits subject requested ttl rfl
    exact inStep_createSession h hnew hsubject
  | activateRole sessionId roleName => exact inStep_activateRole h
  | deactivateRole sessionId roleName => exact inStep_deactivateRole h
  | getSession sessionId => exact inStep_getSession h
  | destroySession sessionId => exact inStep_destroySession h
  | currentVersion subject => exact inStep_currentVersion hnewest h
  | cleanupExpired => exact inStep_cleanupExpired h
  | assignments store => exact ⟨⟨h.unlocked, h.reachable, h.reads, rfl, h.constraints, h.versions, h.rows⟩, rfl⟩
  | constraints store =>
    refine ⟨⟨h.unlocked, h.reachable, h.reads, h.assignments, ?_, h.versions, h.rows⟩, rfl⟩
    show d.constraintStore.map (fun _ => store) = w.constraintStore.map (fun _ => store)
    rw [h.constraints]

/-- An identifier that no session has is still free after an event that does not draw it. -/
theorem get?_call_of_none (h : Simulates w d) {event : ManagerEvent A C U S} {id : U} (hnone : w.sessions.get? id = none)
    (hid : event.creates ≠ some id) : (w.call (E := E) event).1.sessions.get? id = none := by
  obtain ⟨input, op⟩ := event
  cases op with
  | createSession subject requested ttl =>
    have hne : id ≠ input.uuid := fun heq => hid (congrArg some heq.symm)
    rw [call_createSession h.unlocked]
    split
    · exact hnone
    · exact (HashMap.get?_insert_of_ne _ _ hne).trans hnone
  | activateRole sessionId roleName =>
    rw [call_activateRole h.unlocked]
    split
    · exact hnone
    · rename_i session hs
      split
      · exact hnone
      · split
        · exact hnone
        · split
          · exact hnone
          · have hne : id ≠ session.id := by
              rintro rfl
              rcases h.get?_cases sessionId with ⟨hs', -⟩ | ⟨session', stored, hs', -, hrow⟩
              · cases hs'.symm.trans hs
              · obtain rfl := Option.some.inj (hs'.symm.trans hs)
                rw [hrow.id, hs] at hnone
                cases hnone
            exact (HashMap.get?_insert_of_ne _ _ hne).trans hnone
  | deactivateRole sessionId roleName =>
    exact (op_shrinks E (.deactivateRole input.now sessionId roleName) w).get?_of_none hnone
  | getSession sessionId => exact hnone
  | destroySession sessionId => exact (op_shrinks E (.destroySession sessionId) w).get?_of_none hnone
  | currentVersion subject => exact hnone
  | cleanupExpired => exact (op_shrinks E (.cleanupExpired input.now) w).get?_of_none hnone
  | assignments store => exact hnone
  | constraints store => exact hnone

theorem along_fits (hnewest : NewestFirst newest) : ∀ (events : List (ManagerEvent A C U S)) (w : SessionState A C U S)
    (d : DbSessionState A C U), Simulates w d → (events.filterMap ManagerEvent.creates).Nodup →
    (∀ id ∈ events.filterMap ManagerEvent.creates, w.sessions.get? id = none) →
    (∀ event ∈ events, ∀ subject requested ttl, event.op = .createSession subject requested ttl →
      ConvertsBack subject) →
      (inMemoryMachine (E := E)).Along Fits w events
  | [], _, _, _, _, _, _ => trivial
  | event :: events, w, d, h, hids, hnone, hsubjects => by
    have hfits : Fits w event := by
      intro subject requested ttl hop
      have hcreates : event.creates = some event.input.uuid := by
        unfold ManagerEvent.creates
        rw [hop]
      exact ⟨hnone _ (List.mem_filterMap.2 ⟨event, List.mem_cons_self, hcreates⟩),
        hsubjects event List.mem_cons_self subject requested ttl hop⟩
    refine ⟨hfits, along_fits hnewest events _ _ (inStep hnewest h hfits).1 ?_ (fun id hid => ?_)
      (fun event' h' => hsubjects event' (List.mem_cons_of_mem _ h'))⟩
    · exact hids.sublist ((List.sublist_cons_self event events).filterMap _)
    · refine get?_call_of_none h (hnone id ?_) (fun hcreates => ?_)
      · exact ((List.sublist_cons_self event events).filterMap _).subset hid
      · rw [List.filterMap_cons_some hcreates, List.nodup_cons] at hids
        exact hids.1 hid

end Simulation

/-! ## The main result -/

section Main
variable {A C U S P E : Type} [AssignmentStore A S P E] [ConstraintStore C E] [Subject S] [SubjectOfId S] [DecidableEq U]

/-- **Over a table whose loads answer the saved row the two managers are one**: they answer every run of the shared
calls alike, whatever the stores come to between the calls, as long as each creation draws an identifier of its own for
a subject whose id converts back. -/
theorem managers_agree (newest : List StoredRow → Option StoredRow) (hnewest : NewestFirst newest) {reader : RowReader}
    (hreads : ReadsSessions reader) (store : A) (constraintStore : Option C) (events : List (ManagerEvent A C U S))
    (hids : (events.filterMap ManagerEvent.creates).Nodup)
    (hsubjects : ∀ event ∈ events, ∀ subject requested ttl, event.op = .createSession subject requested ttl →
      ConvertsBack subject) :
    inMemoryMachine.outs ⟨store, constraintStore, HashMap.empty, HashMap.empty, none⟩ events =
      (dbMachine newest).outs ⟨DbSessionStore.new reader, store, constraintStore⟩ events := by
  have hstart : Simulates (⟨store, constraintStore, HashMap.empty, HashMap.empty, none⟩ : SessionState A C U S)
      ⟨DbSessionStore.new reader, store, constraintStore⟩ := ⟨rfl, rfl, hreads, rfl, rfl, rfl, fun _ => .none⟩
  exact inMemoryMachine.outs_eq_of_simulation (dbMachine newest) Fits Simulates
    (fun w d event h hfits => inStep hnewest h hfits) _ _ events hstart
    (along_fits hnewest events _ _ hstart hids (fun _ _ => rfl) hsubjects)

end Main

def aliceStore : InMemoryAssignmentStore String TestPerm :=
  (InMemoryAssignmentStore.new.assignRole "alice" "auditor").assignRole "alice" "operator"

/-- A session of two roles asked for one that is held, another role activated, looked up and destroyed. -/
def aliceCalls : List (ManagerEvent (InMemoryAssignmentStore String TestPerm) InMemoryConstraintStore Nat String) :=
  [⟨⟨0, 1⟩, .createSession "alice" {"auditor", "admin"} 60⟩, ⟨⟨10, 2⟩, .activateRole 1 "operator"⟩,
    ⟨⟨20, 3⟩, .getSession 1⟩, ⟨⟨30, 4⟩, .destroySession 1⟩, ⟨⟨40, 5⟩, .deactivateRole 1 "auditor"⟩]

theorem managers_agree_alice :
    inMemoryMachine.outs ⟨aliceStore, none, HashMap.empty, HashMap.empty, none⟩ aliceCalls =
      (dbMachine latest).outs ⟨DbSessionStore.new .byName, aliceStore, none⟩ aliceCalls :=
  managers_agree latest latest_newestFirst byName_readsSessions aliceStore none aliceCalls (by decide) (fun _ _ _ _ _ _ => rfl)

end Rbac
end Kirino
