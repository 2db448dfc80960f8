import Mathlib.Data.Set.Basic
import Kirino.Rbac.DbSessionManager
import Kirino.Rbac.Store.Memory
/-!
# DbVersions — when a version bump of the session table is permanent (`rbac/session/db.rs`, `database/db_session.rs`)

The subject's version has no column of its own: it is read back from the newest of the subject's rows, and a new row
starts at the default.  So a later row, the loss of the last row, or a late or wrapped write takes a bump back.  Without
these (`KeepsVersions`) all rows of the subject stay at one version, which never decreases, and only then
(`bumpPermanent_iff`).
-/
namespace Kirino
namespace Rbac

open Lib (HashMap Machine Pool PoolEvent RowReader)
open DbSessionStore (loadedRow subjectVersion ofSubject setVersion)

/-! ## The versions on record -/

section Versions
variable {U : Type} [DecidableEq U] {newest : List StoredRow → Option StoredRow} {rows rows' : HashMap U StoredRow}
variable {sid : String}

/-- The versions of the subject's rows. -/
def versionsOf (rows : HashMap U StoredRow) (sid : String) : Set UInt64 :=
  {v | ∃ id row, rows.get? id = some row ∧ row.subjectId = sid ∧ row.version.toUInt64 = v}

theorem mem_ofSubject {row : StoredRow} :
    row ∈ ofSubject rows sid ↔ (∃ id, rows.get? id = some row) ∧ row.subjectId = sid := by
  simp [ofSubject, HashMap.get?_eq_some_iff]

theorem subjectVersion_cases (hnewest : NewestFirst newest) (rows : HashMap U StoredRow) (sid : String) :
    subjectVersion newest rows sid ∈ versionsOf rows sid ∨
      versionsOf rows sid = ∅ ∧ subjectVersion newest rows sid = 0 := by
  unfold subjectVersion
  cases hrow : newest (ofSubject rows sid) with
  | some row =>
    obtain ⟨⟨id, hid⟩, hsid⟩ := mem_ofSubject.1 (hnewest.mem _ _ hrow)
    exact Or.inl ⟨id, row, hid, hsid, rfl⟩
  | none =>
    refine Or.inr ⟨Set.eq_empty_iff_forall_notMem.2 ?_, rfl⟩
    rintro v ⟨id, row, hid, hsid, -⟩
    have hmem : row ∈ ofSubject rows sid := mem_ofSubject.2 ⟨⟨id, hid⟩, hsid⟩
    rw [hnewest.none _ hrow] at hmem
    exact absurd hmem List.not_mem_nil

theorem subjectVersion_of_empty (hnewest : NewestFirst newest) (h : versionsOf rows sid = ∅) :
    subjectVersion newest rows sid = 0 := by
  rcases subjectVersion_cases hnewest rows sid with hmem | ⟨-, hzero⟩
  · rw [h] at hmem
    exact hmem.elim
  · exact hzero

theorem subjectVersion_of_subset (hnewest : NewestFirst newest) {v : UInt64} (h : versionsOf rows sid ⊆ {v})
    (hne : (versionsOf rows sid).Nonempty) : subjectVersion newest rows sid = v := by
  rcases subjectVersion_cases hnewest rows sid with hmem | ⟨hempty, -⟩
  · exact h hmem
  · exact absurd hempty hne.ne_empty

theorem versionsOf_nonempty (hnewest : NewestFirst newest) (h : 0 < subjectVersion newest rows sid) :
    (versionsOf rows sid).Nonempty := by
  rcases subjectVersion_cases hnewest rows sid with hmem | ⟨-, hzero⟩
  · exact ⟨_, hmem⟩
  · rw [hzero] at h
    exact absurd h (by decide)

theorem subjectVersion_congr (hnewest : NewestFirst newest) {v : UInt64} (h : versionsOf rows sid ⊆ {v})
    (heq : versionsOf rows' sid = versionsOf rows sid) :
    subjectVersion newest rows' sid = subjectVersion newest rows sid := by
  rcases (versionsOf rows sid).eq_empty_or_nonempty with hempty | hne
  · rw [subjectVersion_of_empty hnewest hempty, subjectVersion_of_empty hnewest (heq.trans hempty)]
  · rw [subjectVersion_of_subset hnewest h hne, subjectVersion_of_subset hnewest (heq ▸ h) (heq ▸ hne)]

/-! ### What the statements make of them -/

theorem versionsOf_save {id : U} {row : StoredRow} (hnew : rows.get? id = none) (hzero : row.version = 0) :
    versionsOf (rows.insert id row) sid =
      if row.subjectId = sid then insert 0 (versionsOf rows sid) else versionsOf rows sid := by
  have hold : ∀ v, v ∈ versionsOf rows sid →
      ∃ id' row', (rows.insert id row).get? id' = some row' ∧ row'.subjectId = sid ∧ row'.version.toUInt64 = v := by
    rintro v ⟨id', row', hget, hrest⟩
    refine ⟨id', row', ?_, hrest⟩
    rw [HashMap.get?_insert_of_ne _ _ (fun hid => by rw [hid, hnew] at hget; cases hget)]
    exact hget
  ext v
  split
  · rename_i hsid
    constructor
    · rintro ⟨id', row', hget, hsid', rfl⟩
      rw [HashMap.get?_insert] at hget
      split at hget
      · obtain rfl := Option.some.inj hget
        rw [hzero]
        exact Set.mem_insert 0 _
      · exact Set.mem_insert_of_mem _ ⟨id', row', hget, hsid', rfl⟩
    · rintro (rfl | hv)
      · exact ⟨id, row, HashMap.get?_insert_self _ _ _, hsid, by rw [hzero]; rfl⟩
      · exact hold v hv
  · rename_i hsid
    constructor
    · rintro ⟨id', row', hget, hsid', rfl⟩
      rw [HashMap.get?_insert] at hget
      split at hget
      · obtain rfl := Option.some.inj hget
        exact absurd hsid' hsid
      · exact ⟨id', row', hget, hsid', rfl⟩
    · exact hold v

theorem versionsOf_updateRoles {id : U} {stored : StoredRow} (hstored : rows.get? id = some stored)
    (activeRoles : Finset String) :
    versionsOf (rows.insert id { stored with activeRoles }) sid = versionsOf rows sid := by
  ext v
  constructor
  · rintro ⟨id', row', hget, hsid, rfl⟩
    rw [HashMap.get?_insert] at hget
    split at hget
    · obtain rfl := Option.some.inj hget
      exact ⟨id, stored, hstored, hsid, rfl⟩
    · exact ⟨id', row', hget, hsid, rfl⟩
  · rintro ⟨id', row', hget, hsid, rfl⟩
    by_cases hid : id' = id
    · subst hid
      obtain rfl := Option.some.inj (hstored.symm.trans hget)
      exact ⟨id', _, HashMap.get?_insert_self _ _ _, hsid, rfl⟩
    · exact ⟨id', row', (HashMap.get?_insert_of_ne _ _ hid).trans hget, hsid, rfl⟩

theorem versionsOf_setVersion (rows : HashMap U StoredRow) (sid sid' : String) (next : UInt64) :
    versionsOf (setVersion rows sid' next) sid =
      if sid' = sid then {v | v = next ∧ (versionsOf rows sid).Nonempty} else versionsOf rows sid := by
  have hget : ∀ id, (setVersion rows sid' next).get? id = (rows.get? id).map (fun row =>
      if row.subjectId = sid' then { row with version := next.toInt64 } else row) := rows.get?_mapValues _
  ext v
  split
  · rename_i hsid
    subst hsid
    constructor
    · rintro ⟨id, row', hrow', hsid', rfl⟩
      rw [hget] at hrow'
      obtain ⟨row, hrow, rfl⟩ := Option.map_eq_some_iff.1 hrow'
      split at hsid'
      · rename_i hsub
        rw [if_pos hsub]
        exact ⟨UInt64.toUInt64_toInt64 next, _, id, row, hrow, hsub, rfl⟩
      · exact absurd hsid' ‹_›
    · rintro ⟨rfl, _, id, row, hrow, hsub, -⟩
      refine ⟨id, { row with version := v.toInt64 }, ?_, hsub, UInt64.toUInt64_toInt64 v⟩
      rw [hget, hrow, Option.map_some, if_pos hsub]
  · rename_i hsid
    constructor
    · rintro ⟨id, row', hrow', hsid', rfl⟩
      rw [hget] at hrow'
      obtain ⟨row, hrow, rfl⟩ := Option.map_eq_some_iff.1 hrow'
      split at hsid'
      · exact absurd (Eq.trans (Eq.symm ‹_›) hsid') hsid
      · rename_i hsub
        rw [if_neg hsub]
        exact ⟨id, row, hrow, hsid', rfl⟩
    · rintro ⟨id, row, hrow, hsub, rfl⟩
      refine ⟨id, row, ?_, hsub, rfl⟩
      rw [hget, hrow, Option.map_some, if_neg (fun h => hsid (h.symm.trans hsub))]

theorem versionsOf_retain (rows : HashMap U StoredRow) (keep : U → StoredRow → Bool) :
    versionsOf (rows.retain keep) sid ⊆ versionsOf rows sid := by
  rintro v ⟨id, row, hget, hrest⟩
  exact ⟨id, row, ((rows.get?_retain_eq_some keep id row).1 hget).1, hrest⟩

theorem loadedRow_row {rows : HashMap U StoredRow} {id : U} {loaded : SessionRow U}
    (h : loadedRow rows id = some loaded) : loaded.version = 0 ∧
      ∃ stored, rows.get? id = some stored ∧ stored.subjectId = loaded.subjectId := by
  obtain ⟨stored, hstored, rfl⟩ := Option.map_eq_some_iff.1 h
  exact ⟨rfl, stored, hstored, rfl⟩

end Versions

/-! ## The events that touch the versions -/

section Definitions
variable {A C U S P E : Type} [AssignmentStore A S P E] [ConstraintStore C E] [Subject S] [SubjectOfId S] [DecidableEq U]
variable (newest : List StoredRow → Option StoredRow) (sid : String)

/-- The event inserts the row of a new session of the subject. -/
def SavesSession (id : U) (p : DbSessionPool A C U S) (e : DbSessionEvent A C U S) : Prop :=
  ∃ i input subject row, e = .step i input ∧ p.threads[i]? = some (.createSave subject row) ∧ row.subjectId = sid ∧
    row.id = id ∧ p.shared.store.reachable = true ∧ p.shared.store.rows.get? id = none

/-- The event writes the version to the rows of the subject, and completes a bump. -/
def CompletesBump (next : UInt64) (p : DbSessionPool A C U S) (e : DbSessionEvent A C U S) : Prop :=
  ∃ i input subject, e = .step i input ∧ p.threads[i]? = some (.bumpWrite subject next) ∧ subjectId subject = sid ∧
    p.shared.store.reachable = true

/-- The event deletes the rows that the test does not keep. -/
def Deletes (keep : U → StoredRow → Bool) (p : DbSessionPool A C U S) (e : DbSessionEvent A C U S) : Prop :=
  p.shared.store.reachable = true ∧
    ((∃ id, e = .env (.destroySession id) ∧ keep = fun id' _ => decide (id' ≠ id)) ∨
      ∃ now, e = .env (.cleanupExpired now) ∧ keep = fun _ row => decide (¬ row.expiresAt < now))

/-- The subject's version in the pool. -/
def poolVersion (p : DbSessionPool A C U S) : UInt64 := subjectVersion newest p.shared.store.rows sid

/-- While the subject's version is above 0, no row of the subject is inserted and its last row stays; and a bump of its
rows does not write 0, or less than their version. -/
structure KeepsVersions (p : DbSessionPool A C U S) (e : DbSessionEvent A C U S) : Prop where
  saves : ∀ id, SavesSession sid id p e → poolVersion newest sid p = 0
  deletes : ∀ keep, Deletes keep p e → 0 < poolVersion newest sid p →
    ∃ id row, p.shared.store.rows.get? id = some row ∧ row.subjectId = sid ∧ keep id row = true
  bumps : ∀ next, CompletesBump sid next p e → (∃ id row, p.shared.store.rows.get? id = some row ∧ row.subjectId = sid) →
    0 < next ∧ poolVersion newest sid p ≤ next

/-- **A bump is permanent** in the run: the sessions that existed before it load a version below the current one ever
after, the current version never decreases, and a session created after it is not stale until the next bump. -/
structure BumpPermanent (p₀ : DbSessionPool A C U S) (es : List (DbSessionEvent A C U S)) : Prop where
  stale : ∀ k n e next id loaded, es[k]? = some e →
    CompletesBump sid next ((dbSessionMachine newest).run p₀ (es.take k)) e →
    loadedRow ((dbSessionMachine newest).run p₀ (es.take k)).shared.store.rows id = some loaded →
    loaded.subjectId = sid → k < n → n ≤ es.length → ∀ loaded',
      loadedRow ((dbSessionMachine newest).run p₀ (es.take n)).shared.store.rows id = some loaded' →
      loaded'.version < poolVersion newest sid ((dbSessionMachine newest).run p₀ (es.take n))
  monotone : ∀ m n, m ≤ n → n ≤ es.length → poolVersion newest sid ((dbSessionMachine newest).run p₀ (es.take m)) ≤
    poolVersion newest sid ((dbSessionMachine newest).run p₀ (es.take n))
  fresh : ∀ k j n e next e' id, es[k]? = some e →
    CompletesBump sid next ((dbSessionMachine newest).run p₀ (es.take k)) e → k < j → es[j]? = some e' →
    SavesSession sid id ((dbSessionMachine newest).run p₀ (es.take j)) e' → j < n → n ≤ es.length →
    (∀ m e'' next', j < m → m < n → es[m]? = some e'' →
      ¬ CompletesBump sid next' ((dbSessionMachine newest).run p₀ (es.take m)) e'') →
    ∀ loaded, loadedRow ((dbSessionMachine newest).run p₀ (es.take n)).shared.store.rows id = some loaded →
      ¬ loaded.version < poolVersion newest sid ((dbSessionMachine newest).run p₀ (es.take n))

/-- All rows of the subject are at its version. -/
def OneVersion (p : DbSessionPool A C U S) : Prop :=
  versionsOf p.shared.store.rows sid ⊆ {poolVersion newest sid p}

/-- An empty table, wired to the two stores. -/
def freshDbManager (reader : RowReader) (store : A) (constraintStore : Option C) : DbSessionPool A C U S :=
  ⟨⟨DbSessionStore.new reader, store, constraintStore⟩, []⟩

end Definitions

/-! ## One event -/

theorem OneVersion.of_subset {A C U S : Type} [DecidableEq U] {newest : List StoredRow → Option StoredRow} {sid : String}
    {p : DbSessionPool A C U S} {v : UInt64} (hsub : versionsOf p.shared.store.rows sid ⊆ {v})
    (hv : poolVersion newest sid p = v) : OneVersion newest sid p := by
  rw [OneVersion, hv]
  exact hsub

theorem SavesSession.not_completesBump {A C U S : Type} [Subject S] [DecidableEq U] {sid : String}
    {p : DbSessionPool A C U S} {e : DbSessionEvent A C U S} {id : U} {next : UInt64} (h : SavesSession sid id p e) :
    ¬ CompletesBump sid next p e := by
  obtain ⟨i, input, subject, row, rfl, hcall, -⟩ := h
  rintro ⟨j, input', subject', he, hcall', -⟩
  obtain ⟨rfl, -⟩ := PoolEvent.step.inj he
  cases hcall.symm.trans hcall'

section Step
variable {A C U S P E : Type} [AssignmentStore A S P E] [ConstraintStore C E] [Subject S] [SubjectOfId S] [DecidableEq U]
variable {newest : List StoredRow → Option StoredRow} {sid : String}

omit [AssignmentStore A S P E] [ConstraintStore C E] [Subject S] [SubjectOfId S] in
theorem rows_of_unreachable (S E : Type) {w : DbSessionState A C U} (op : DbSessionOp A C U)
    (h : ¬ w.store.reachable = true) : (op.run S E w).1.store.rows = w.store.rows := by
  cases op with
  | destroySession id =>
    unfold DbSessionOp.run DbSessionStore.deleteSession
    dsimp only
    rw [if_neg h]
  | cleanupExpired now =>
    unfold DbSessionOp.run DbSessionStore.cleanupExpired
    dsimp only
    rw [if_neg h]
  | assignments store => rfl
  | constraints store => rfl
  | database reachable => rfl

theorem versionsOf_step (newest : List StoredRow → Option StoredRow) (sid : String) (p : DbSessionPool A C U S)
    (e : DbSessionEvent A C U S) :
    versionsOf ((dbSessionMachine newest).step p e).shared.store.rows sid = versionsOf p.shared.store.rows sid ∨
      (∃ id, SavesSession sid id p e) ∨ (∃ keep, Deletes keep p e) ∨ ∃ next, CompletesBump sid next p e := by
  cases e with
  | spawn call => exact Or.inl rfl
  | step i input =>
    cases hcall : p.threads[i]? with
    | none =>
      have hstep : (dbSessionMachine newest).step p (.step i input) = p :=
        ((dbSessionProgram newest).machine_step_none hcall input).1
      rw [hstep]
      exact Or.inl rfl
    | some call =>
      have hstep : ((dbSessionMachine newest).step p (.step i input)).shared = (call.next newest input p.shared).1 :=
        congrArg Pool.shared ((dbSessionProgram newest).machine_step hcall input).1
      rw [hstep]
      have heffect := db_next_effect newest input p.shared call
      generalize call.next newest input p.shared = result at heffect
      cases heffect with
      | quiet => exact Or.inl rfl
      | found => exact Or.inl rfl
      | saved subject row hsave hreachable hnew =>
        by_cases hsid : row.subjectId = sid
        · exact Or.inr (Or.inl ⟨row.id, i, input, subject, row, rfl, hsave ▸ hcall, hsid, rfl, hreachable, hnew⟩)
        · exact Or.inl ((versionsOf_save hnew rfl).trans (if_neg hsid))
      | updated row roleName activeRoles stored _ _ hstored => exact Or.inl (versionsOf_updateRoles hstored activeRoles)
      | bumped subject next hbump hreachable =>
        by_cases hsid : subjectId subject = sid
        · exact Or.inr (Or.inr (Or.inr ⟨next, i, input, subject, rfl, hbump ▸ hcall, hsid, hreachable⟩))
        · exact Or.inl ((versionsOf_setVersion _ _ _ _).trans (if_neg hsid))
  | env op =>
    by_cases hreachable : p.shared.store.reachable = true
    · cases op with
      | destroySession id => exact Or.inr (Or.inr (Or.inl ⟨_, hreachable, Or.inl ⟨id, rfl, rfl⟩⟩))
      | cleanupExpired now => exact Or.inr (Or.inr (Or.inl ⟨_, hreachable, Or.inr ⟨now, rfl, rfl⟩⟩))
      | assignments store => exact Or.inl rfl
      | constraints store => exact Or.inl rfl
      | database reachable => exact Or.inl rfl
    · exact Or.inl (congrArg (fun rows => versionsOf rows sid) (rows_of_unreachable S E op hreachable))

variable {p : DbSessionPool A C U S} {e : DbSessionEvent A C U S}

theorem SavesSession.step (newest : List StoredRow → Option StoredRow) {id : U} (h : SavesSession sid id p e) :
    (∃ stored, ((dbSessionMachine newest).step p e).shared.store.rows.get? id = some stored) ∧
      versionsOf ((dbSessionMachine newest).step p e).shared.store.rows sid =
        insert 0 (versionsOf p.shared.store.rows sid) := by
  obtain ⟨i, input, subject, row, rfl, hcall, hsid, rfl, hreachable, hnew⟩ := h
  have hrows : ((dbSessionMachine newest).step p (.step i input)).shared.store.rows = p.shared.store.rows.insert row.id
      ⟨row.subjectId, row.activeRoles, 0, row.expiresAt, row.createdAt⟩ := by
    refine (congrArg (fun q => q.shared.store.rows) ((dbSessionProgram newest).machine_step hcall input).1).trans ?_
    dsimp only [dbSessionProgram, DbSessionCall.next, createSaveStep, DbSessionStore.saveSession]
    rw [if_pos ⟨hreachable, hnew⟩]
    rfl
  rw [hrows]
  exact ⟨⟨_, HashMap.get?_insert_self _ _ _⟩, (versionsOf_save hnew rfl).trans (if_pos hsid)⟩

theorem Deletes.step (newest : List StoredRow → Option StoredRow) {keep : U → StoredRow → Bool} (h : Deletes keep p e) :
    ((dbSessionMachine newest).step p e).shared.store.rows = p.shared.store.rows.retain keep := by
  obtain ⟨hreachable, ⟨id, rfl, rfl⟩ | ⟨now, rfl, rfl⟩⟩ := h
  · dsimp only [dbSessionMachine, Lib.Program.machine_env, dbSessionProgram, DbSessionOp.run,
      DbSessionStore.deleteSession]
    rw [if_pos hreachable]
    rfl
  · dsimp only [dbSessionMachine, Lib.Program.machine_env, dbSessionProgram, DbSessionOp.run,
      DbSessionStore.cleanupExpired]
    rw [if_pos hreachable]

theorem CompletesBump.rows_step (newest : List StoredRow → Option StoredRow) {next : UInt64}
    (h : CompletesBump sid next p e) :
    ((dbSessionMachine newest).step p e).shared.store.rows = setVersion p.shared.store.rows sid next := by
  obtain ⟨i, input, subject, rfl, hcall, rfl, hreachable⟩ := h
  refine (congrArg (fun q => q.shared.store.rows) ((dbSessionProgram newest).machine_step hcall input).1).trans ?_
  dsimp only [dbSessionProgram, DbSessionCall.next, bumpWriteStep, DbSessionStore.bumpVersion]
  rw [if_pos hreachable]
  rfl

theorem CompletesBump.step (newest : List StoredRow → Option StoredRow) {next : UInt64}
    (h : CompletesBump sid next p e) :
    versionsOf ((dbSessionMachine newest).step p e).shared.store.rows sid =
      {v | v = next ∧ (versionsOf p.shared.store.rows sid).Nonempty} := by
  rw [h.rows_step newest, versionsOf_setVersion, if_pos rfl]

theorem CompletesBump.loadedRow_step (newest : List StoredRow → Option StoredRow) {next : UInt64}
    (h : CompletesBump sid next p e) {id : U} {row : StoredRow} (hrow : p.shared.store.rows.get? id = some row) :
    ∃ loaded, loadedRow ((dbSessionMachine newest).step p e).shared.store.rows id = some loaded ∧ loaded.version = 0 := by
  rw [loadedRow, h.rows_step newest, setVersion, HashMap.get?_mapValues, hrow]
  exact ⟨_, rfl, rfl⟩

theorem CompletesBump.poolVersion (hnewest : NewestFirst newest) {next : UInt64} (h : CompletesBump sid next p e)
    (hrow : (versionsOf p.shared.store.rows sid).Nonempty) :
    poolVersion newest sid ((dbSessionMachine newest).step p e) = next := by
  have hversions := h.step newest
  refine subjectVersion_of_subset hnewest (by rw [hversions]; exact fun v hv => hv.1) ?_
  rw [hversions]
  exact ⟨next, rfl, hrow⟩

theorem Deletes.poolVersion_eq (hnewest : NewestFirst newest) (h : OneVersion newest sid p) {keep : U → StoredRow → Bool}
    (hdel : Deletes keep p e) (hkeeps : 0 < poolVersion newest sid p →
      ∃ id row, p.shared.store.rows.get? id = some row ∧ row.subjectId = sid ∧ keep id row = true) :
    poolVersion newest sid ((dbSessionMachine newest).step p e) = poolVersion newest sid p := by
  have hsub : versionsOf ((dbSessionMachine newest).step p e).shared.store.rows sid ⊆ {poolVersion newest sid p} := by
    rw [hdel.step newest]
    exact (versionsOf_retain _ _).trans h
  rcases (versionsOf ((dbSessionMachine newest).step p e).shared.store.rows sid).eq_empty_or_nonempty with hempty | hne
  · refine (subjectVersion_of_empty hnewest hempty).trans (Eq.symm ?_)
    by_contra hpos
    obtain ⟨id, row, hget, hsid, hkeep⟩ := hkeeps (UInt64.pos_iff_ne_zero.2 hpos)
    have hmem : row.version.toUInt64 ∈ versionsOf ((dbSessionMachine newest).step p e).shared.store.rows sid := by
      rw [hdel.step newest]
      exact ⟨id, row, (HashMap.get?_retain_eq_some _ _ _ _).2 ⟨hget, hkeep⟩, hsid, rfl⟩
    rw [hempty] at hmem
    exact hmem
  · exact subjectVersion_of_subset hnewest hsub hne

/-- **An event that keeps the versions** leaves the subject at one version, the one before or the one of a bump. -/
theorem oneVersion_step (hnewest : NewestFirst newest) (h : OneVersion newest sid p)
    (he : KeepsVersions newest sid p e) :
    OneVersion newest sid ((dbSessionMachine newest).step p e) ∧
      (poolVersion newest sid ((dbSessionMachine newest).step p e) = poolVersion newest sid p ∨
        ∃ next, CompletesBump sid next p e ∧ poolVersion newest sid ((dbSessionMachine newest).step p e) = next ∧
          0 < next ∧ poolVersion newest sid p ≤ next) := by
  rcases versionsOf_step newest sid p e with hkept | ⟨id, hsave⟩ | ⟨keep, hdel⟩ | ⟨next, hbump⟩
  · have hsame := subjectVersion_congr hnewest h hkept
    exact ⟨.of_subset (hkept ▸ h) hsame, Or.inl hsame⟩
  · have hzero := he.saves id hsave
    have hversions := (hsave.step newest).2
    have hsub : versionsOf ((dbSessionMachine newest).step p e).shared.store.rows sid ⊆ {0} := by
      rw [hversions]
      exact Set.insert_subset rfl (hzero ▸ h)
    have hsame := subjectVersion_of_subset hnewest hsub (hversions ▸ Set.insert_nonempty _ _)
    exact ⟨.of_subset hsub hsame, Or.inl (hsame.trans hzero.symm)⟩
  · have hsub : versionsOf ((dbSessionMachine newest).step p e).shared.store.rows sid ⊆ {poolVersion newest sid p} := by
      rw [hdel.step newest]
      exact (versionsOf_retain _ _).trans h
    have hsame := hdel.poolVersion_eq hnewest h (he.deletes keep hdel)
    exact ⟨.of_subset hsub hsame, Or.inl hsame⟩
  · have hversions := hbump.step newest
    rcases (versionsOf p.shared.store.rows sid).eq_empty_or_nonempty with hempty | hne
    · have hempty' : versionsOf ((dbSessionMachine newest).step p e).shared.store.rows sid = ∅ := by
        rw [hversions, hempty]
        exact Set.eq_empty_iff_forall_notMem.2 (fun v hv => Set.not_nonempty_empty hv.2)
      have hsame := (subjectVersion_of_empty hnewest hempty').trans (subjectVersion_of_empty hnewest hempty).symm
      exact ⟨.of_subset (hempty' ▸ Set.empty_subset _) hsame, Or.inl hsame⟩
    · have hnext := hbump.poolVersion hnewest hne
      have hrow : ∃ id row, p.shared.store.rows.get? id = some row ∧ row.subjectId = sid := by
        obtain ⟨v, id, row, hget, hsid, -⟩ := hne
        exact ⟨id, row, hget, hsid⟩
      refine ⟨?_, Or.inr ⟨next, hbump, hnext, he.bumps next hbump hrow⟩⟩
      rw [OneVersion, hnext, hversions]
      exact fun v hv => hv.1

end Step

/-! ## Runs -/

section Runs
variable {A C U S P E : Type} [AssignmentStore A S P E] [ConstraintStore C E] [Subject S] [SubjectOfId S] [DecidableEq U]
variable {newest : List StoredRow → Option StoredRow} {sid : String}
variable {p₀ : DbSessionPool A C U S} {es : List (DbSessionEvent A C U S)}

theorem bumped_before (newest : List StoredRow → Option StoredRow) (hempty : versionsOf p₀.shared.store.rows sid = ∅) :
    ∀ m, m ≤ es.length →
    versionsOf ((dbSessionMachine newest).run p₀ (es.take m)).shared.store.rows sid ⊆ {0} ∨
      ∃ k e next, k < m ∧ es[k]? = some e ∧ CompletesBump sid next ((dbSessionMachine newest).run p₀ (es.take k)) e
  | 0, _ => Or.inl (hempty ▸ Set.empty_subset _)
  | m + 1, hm => by
    have he : es[m]? = some es[m] := List.getElem?_eq_getElem hm
    rw [(dbSessionMachine newest).run_take_succ p₀ he]
    rcases bumped_before newest hempty m (Nat.le_of_lt hm) with hzero | ⟨k, e, next, hkm, hk⟩
    · rcases versionsOf_step newest sid ((dbSessionMachine newest).run p₀ (es.take m)) es[m] with
        hkept | ⟨id, hsave⟩ | ⟨keep, hdel⟩ | ⟨next, hbump⟩
      · exact Or.inl (hkept ▸ hzero)
      · rw [(hsave.step newest).2]
        exact Or.inl (Set.insert_subset rfl hzero)
      · rw [hdel.step newest]
        exact Or.inl ((versionsOf_retain _ _).trans hzero)
      · exact Or.inr ⟨m, es[m], next, Nat.lt_succ_self m, he, hbump⟩
    · exact Or.inr ⟨k, e, next, Nat.lt_succ_of_lt hkm, hk⟩

/-- **In a run that keeps the versions** the subject is at one version at every moment. -/
theorem oneVersion_run (hnewest : NewestFirst newest) (hempty : versionsOf p₀.shared.store.rows sid = ∅)
    (ha : (dbSessionMachine newest).Along (KeepsVersions newest sid) p₀ es) : ∀ m, m ≤ es.length →
    OneVersion newest sid ((dbSessionMachine newest).run p₀ (es.take m))
  | 0, _ => hempty.subset.trans (Set.empty_subset _)
  | m + 1, hm => by
    have he : es[m]? = some es[m] := List.getElem?_eq_getElem hm
    rw [(dbSessionMachine newest).run_take_succ p₀ he]
    exact (oneVersion_step hnewest (oneVersion_run hnewest hempty ha m (Nat.le_of_lt hm))
      ((dbSessionMachine newest).along_getElem? _ p₀ es ha m _ he)).1

theorem poolVersion_succ (hnewest : NewestFirst newest) (hempty : versionsOf p₀.shared.store.rows sid = ∅)
    (ha : (dbSessionMachine newest).Along (KeepsVersions newest sid) p₀ es) {m : Nat} (hm : m < es.length) :
    poolVersion newest sid ((dbSessionMachine newest).run p₀ (es.take (m + 1))) =
        poolVersion newest sid ((dbSessionMachine newest).run p₀ (es.take m)) ∨
      ∃ next, CompletesBump sid next ((dbSessionMachine newest).run p₀ (es.take m)) es[m] ∧
        poolVersion newest sid ((dbSessionMachine newest).run p₀ (es.take (m + 1))) = next ∧ 0 < next ∧
        poolVersion newest sid ((dbSessionMachine newest).run p₀ (es.take m)) ≤ next := by
  have he : es[m]? = some es[m] := List.getElem?_eq_getElem hm
  rw [(dbSessionMachine newest).run_take_succ p₀ he]
  exact (oneVersion_step hnewest (oneVersion_run hnewest hempty ha m (Nat.le_of_lt hm))
    ((dbSessionMachine newest).along_getElem? _ p₀ es ha m _ he)).2

theorem poolVersion_mono (hnewest : NewestFirst newest) (hempty : versionsOf p₀.shared.store.rows sid = ∅)
    (ha : (dbSessionMachine newest).Along (KeepsVersions newest sid) p₀ es) {m n : Nat} (hmn : m ≤ n) :
    n ≤ es.length → poolVersion newest sid ((dbSessionMachine newest).run p₀ (es.take m)) ≤
      poolVersion newest sid ((dbSessionMachine newest).run p₀ (es.take n)) := by
  induction n, hmn using Nat.le_induction with
  | base => exact fun _ => UInt64.le_refl _
  | succ n _ ih =>
    intro hn
    refine UInt64.le_trans (ih (Nat.le_of_lt hn)) ?_
    rcases poolVersion_succ hnewest hempty ha hn with hsame | ⟨next, -, hnext, -, hle⟩
    · rw [hsame]
      exact UInt64.le_refl _
    · rw [hnext]
      exact hle

/-- **Enough**: a run that keeps the versions makes its bumps permanent. -/
theorem bumpPermanent_of_keepsVersions (hnewest : NewestFirst newest)
    (hempty : versionsOf p₀.shared.store.rows sid = ∅)
    (ha : (dbSessionMachine newest).Along (KeepsVersions newest sid) p₀ es) : BumpPermanent newest sid p₀ es := by
  refine ⟨?_, fun m n hmn hn => poolVersion_mono hnewest hempty ha hmn hn, ?_⟩
  · intro k n e next id loaded he hbump hload hsid hkn hn loaded' hload'
    obtain ⟨-, stored, hstored, hsub⟩ := loadedRow_row hload
    have hpos := (((dbSessionMachine newest).along_getElem? _ p₀ es ha k e he).bumps next hbump
      ⟨id, stored, hstored, hsub.trans hsid⟩).1
    have hnext := hbump.poolVersion hnewest ⟨_, id, stored, hstored, hsub.trans hsid, rfl⟩
    rw [← (dbSessionMachine newest).run_take_succ p₀ he] at hnext
    have hle := poolVersion_mono hnewest hempty ha hkn hn
    rw [hnext] at hle
    rw [(loadedRow_row hload').1]
    exact UInt64.lt_of_lt_of_le hpos hle
  · intro k j n e next e' id he hbump hkj he' hsave hjn hn hnone loaded hload
    have hzero : ∀ m, j ≤ m → m ≤ n → poolVersion newest sid ((dbSessionMachine newest).run p₀ (es.take m)) = 0 := by
      intro m hjm
      induction m, hjm using Nat.le_induction with
      | base => exact fun _ => ((dbSessionMachine newest).along_getElem? _ p₀ es ha j e' he').saves id hsave
      | succ m hjm ih =>
        intro hmn
        have hm : es[m]? = some es[m] := List.getElem?_eq_getElem (by omega)
        rcases poolVersion_succ hnewest hempty ha (by omega : m < es.length) with hsame | ⟨next', hbump', -⟩
        · exact hsame.trans (ih (by omega))
        · exfalso
          rcases Nat.eq_or_lt_of_le hjm with rfl | hlt
          · obtain rfl := Option.some.inj (he'.symm.trans hm)
            exact hsave.not_completesBump hbump'
          · exact hnone m _ next' hlt (by omega) hm hbump'
    rw [hzero n (Nat.le_of_lt hjn) (Nat.le_refl n), (loadedRow_row hload).1]
    exact UInt64.lt_irrefl _

/-- **Needed**: a run whose bumps are permanent keeps the versions. -/
theorem keepsVersions_of_bumpPermanent (hnewest : NewestFirst newest)
    (hempty : versionsOf p₀.shared.store.rows sid = ∅) (h : BumpPermanent newest sid p₀ es) :
    (dbSessionMachine newest).Along (KeepsVersions newest sid) p₀ es := by
  refine (dbSessionMachine newest).along_of_getElem? _ p₀ es (fun j e he => ?_)
  have hj : j < es.length := (List.getElem?_eq_some_iff.1 he).1
  have hmono := h.monotone j (j + 1) (Nat.le_succ j) hj
  have hsucc := (dbSessionMachine newest).run_take_succ p₀ he
  refine ⟨fun id hsave => ?_, fun keep hdel hpos => ?_, fun next hbump hrow => ?_⟩
  · by_contra hne
    have hpos := UInt64.pos_iff_ne_zero.2 hne
    rcases bumped_before newest hempty j (Nat.le_of_lt hj) with hzero | ⟨k, e₀, next, hkj, he₀, hbump⟩
    · exact hne (subjectVersion_of_subset hnewest hzero (versionsOf_nonempty hnewest hpos))
    · obtain ⟨stored, hstored⟩ := (hsave.step newest).1
      rw [← hsucc] at hstored
      have hload : loadedRow ((dbSessionMachine newest).run p₀ (es.take (j + 1))).shared.store.rows id = some _ :=
        congrArg (Option.map _) hstored
      refine h.fresh k j (j + 1) e₀ next e id he₀ hbump hkj he hsave (Nat.lt_succ_self j) hj
        (fun m _ _ hjm hmj => absurd hmj (by omega)) _ hload ?_
      exact UInt64.lt_of_lt_of_le hpos hmono
  · by_contra hnone
    have hempty' : versionsOf ((dbSessionMachine newest).run p₀ (es.take (j + 1))).shared.store.rows sid = ∅ := by
      rw [hsucc, hdel.step newest]
      refine Set.eq_empty_iff_forall_notMem.2 ?_
      rintro v ⟨id, row, hget, hsid, -⟩
      obtain ⟨hold, hkeep⟩ := (HashMap.get?_retain_eq_some _ _ _ _).1 hget
      exact hnone ⟨id, row, hold, hsid, hkeep⟩
    have hzero : poolVersion newest sid ((dbSessionMachine newest).run p₀ (es.take (j + 1))) = 0 :=
      subjectVersion_of_empty hnewest hempty'
    rw [hzero] at hmono
    exact absurd (UInt64.lt_of_lt_of_le hpos hmono) (UInt64.lt_irrefl 0)
  · obtain ⟨id, row, hget, hsid⟩ := hrow
    have hnext := hbump.poolVersion hnewest ⟨_, id, row, hget, hsid, rfl⟩
    rw [← hsucc] at hnext
    refine ⟨?_, hnext ▸ hmono⟩
    obtain ⟨loaded', hload', hzero⟩ := hbump.loadedRow_step newest hget
    rw [← hsucc] at hload'
    have hlt := h.stale j (j + 1) e next id _ he hbump (congrArg (Option.map _) hget) hsid (Nat.lt_succ_self j) hj
      loaded' hload'
    rw [hzero, hnext] at hlt
    exact hlt

end Runs

section Main
variable {A C U S P E : Type} [AssignmentStore A S P E] [ConstraintStore C E] [Subject S] [SubjectOfId S] [DecidableEq U]

/-- **A bump is permanent exactly in the runs that keep the versions.** -/
theorem bumpPermanent_iff (newest : List StoredRow → Option StoredRow) (hnewest : NewestFirst newest)
    (reader : RowReader) (store : A) (constraintStore : Option C) (sid : String) (es : List (DbSessionEvent A C U S)) :
    BumpPermanent newest sid (freshDbManager reader store constraintStore) es ↔
      (dbSessionMachine newest).Along (KeepsVersions newest sid) (freshDbManager reader store constraintStore) es := by
  have hempty : versionsOf (freshDbManager (U := U) (S := S) reader store constraintStore).shared.store.rows sid = ∅ := by
    refine Set.eq_empty_iff_forall_notMem.2 ?_
    rintro v ⟨id, row, hget, -⟩
    cases hget
  exact ⟨keepsVersions_of_bumpPermanent hnewest hempty, bumpPermanent_of_keepsVersions hnewest hempty⟩

end Main

/-! ## One run: a session created after the bump -/

def emptyStore : InMemoryAssignmentStore String TestPerm := InMemoryAssignmentStore.new

/-- A session, a bump, and one more session. -/
def rebornRun : List (DbSessionEvent (InMemoryAssignmentStore String TestPerm) InMemoryConstraintStore Nat String) :=
  [.spawn (.createRoles "alice" ∅ 60), .step 0 ⟨0, 1⟩, .step 0 ⟨0, 0⟩,
    .spawn (.bumpRead "alice"), .step 1 ⟨1, 0⟩, .step 1 ⟨1, 0⟩,
    .spawn (.createRoles "alice" ∅ 60), .step 2 ⟨5, 2⟩, .step 2 ⟨5, 0⟩]

theorem rebornRun_versions :
    poolVersion latest "alice" ((dbSessionMachine latest).run (freshDbManager .byName emptyStore none) (rebornRun.take 6)) = 1 ∧
    poolVersion latest "alice" ((dbSessionMachine latest).run (freshDbManager .byName emptyStore none) (rebornRun.take 9)) = 0 := by
  decide +kernel

theorem not_bumpPermanent_reborn : ¬ BumpPermanent latest "alice" (freshDbManager .byName emptyStore none) rebornRun := by
  intro h
  have hle := h.monotone 6 9 (by decide) (by decide)
  rw [rebornRun_versions.1, rebornRun_versions.2] at hle
  exact absurd hle (by decide)

/-- The run does not keep the versions. -/
theorem bumpPermanent_iff_reborn : ¬ (dbSessionMachine latest).Along (KeepsVersions latest "alice")
    (freshDbManager .byName emptyStore none) rebornRun := by
  intro h
  have hle := ((bumpPermanent_iff latest latest_newestFirst .byName emptyStore none "alice" rebornRun).2 h).monotone 6 9
    (by decide) (by decide)
  rw [rebornRun_versions.1, rebornRun_versions.2] at hle
  exact absurd hle (by decide)

end Rbac
end Kirino
