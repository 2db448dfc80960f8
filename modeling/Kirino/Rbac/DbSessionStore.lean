import Mathlib.Data.Finset.Basic
import Kirino.Lib.HashMap
import Kirino.Lib.RowReader
/-!
# DbSessionStore — the statements of the session table (`database/db_session.rs`)

The table `rbac_sessions` holds one row for each session id.  An insertion leaves the version column at its default and
a load answers version 0, whatever the column holds; the subject's version is that of its newest row.  Which row is the
newest is the database's `ORDER BY created_at DESC LIMIT 1`, a parameter (`NewestFirst`).  Every statement fails, and
changes nothing, while the database does not answer.
A load asks the driver for each column under the table's name, and fails at the first column it does not find; with a
driver that puts that name before the column's, it fails on every row (`loadSession_of_prefixed`).
-/
namespace Kirino
namespace Rbac

open Lib (HashMap RowReader)

/-- A row as the program sees it.  The roles, a JSON array of no relevant order, are the set of them. -/
structure SessionRow (U : Type) where
  id : U
  subjectId : String
  activeRoles : Finset String
  version : UInt64
  expiresAt : Int
  createdAt : Int

/-- A row as the table holds it, under its id. -/
structure StoredRow where
  subjectId : String
  activeRoles : Finset String
  version : Int64
  expiresAt : Int
  createdAt : Int

inductive DbSessionStoreError (U : Type) where
  | database
  | column (name : String)
  | notFound (id : U)

/-- The rows of a subject in the order of `created_at DESC`, first one only. -/
structure NewestFirst (newest : List StoredRow → Option StoredRow) : Prop where
  mem : ∀ rows row, newest rows = some row → row ∈ rows
  latest : ∀ rows row, newest rows = some row → ∀ other ∈ rows, other.createdAt ≤ row.createdAt
  none : ∀ rows, newest rows = none → rows = []

/-- The newest row, the first one of those of equal time. -/
def latest : List StoredRow → Option StoredRow
  | [] => none
  | row :: rows =>
    match latest rows with
    | some other => if row.createdAt < other.createdAt then some other else some row
    | none => some row

theorem latest_eq_none : ∀ rows, latest rows = none → rows = []
  | [], _ => rfl
  | row :: rows, h => by
    unfold latest at h
    split at h
    · split at h <;> cases h
    · cases h

theorem latest_mem : ∀ rows row, latest rows = some row → row ∈ rows
  | [], _, h => by cases h
  | first :: rows, row, h => by
    unfold latest at h
    split at h
    · rename_i other hother
      split at h
      · obtain rfl := Option.some.inj h
        exact List.mem_cons_of_mem first (latest_mem rows other hother)
      · obtain rfl := Option.some.inj h
        exact List.mem_cons_self
    · obtain rfl := Option.some.inj h
      exact List.mem_cons_self

theorem le_latest : ∀ rows row, latest rows = some row → ∀ other ∈ rows, other.createdAt ≤ row.createdAt
  | [], _, h, _, _ => by cases h
  | first :: rows, row, h, other, hmem => by
    unfold latest at h
    split at h
    · rename_i best hbest
      have hle := le_latest rows best hbest
      split at h
      · obtain rfl := Option.some.inj h
        rcases List.mem_cons.1 hmem with rfl | hmem
        · omega
        · exact hle other hmem
      · obtain rfl := Option.some.inj h
        rcases List.mem_cons.1 hmem with rfl | hmem
        · omega
        · have := hle other hmem
          omega
    · rename_i hnone
      obtain rfl := Option.some.inj h
      rw [latest_eq_none rows hnone] at hmem
      rw [List.mem_singleton.1 hmem]

theorem latest_newestFirst : NewestFirst latest := ⟨latest_mem, le_latest, latest_eq_none⟩

/-- The table, whether the database answers, and how its driver finds a column. -/
structure DbSessionStore (U : Type) where
  rows : HashMap U StoredRow
  reachable : Bool
  reader : RowReader

/-- The columns of `load_session`. -/
def sessionColumns : List String := ["id", "subject_id", "active_roles", "context", "expires_at", "created_at"]

/-- The columns of `load_session_metadata`. -/
def metadataColumns : List String :=
  ["id", "subject_id", "active_roles", "context", "version", "expires_at", "created_at"]

/-- The driver finds every column that a load selects. -/
structure ReadsSessions (reader : RowReader) : Prop where
  session : reader.ReadsAll sessionColumns "rbac_sessions"
  metadata : reader.ReadsAll metadataColumns "rbac_sessions"

theorem byName_readsSessions : ReadsSessions RowReader.byName :=
  ⟨RowReader.byName_readsAll _ _, RowReader.byName_readsAll _ _⟩

namespace DbSessionStore

variable {U : Type}

def new (reader : RowReader) : DbSessionStore U := ⟨HashMap.empty, true, reader⟩

def ofSubject (rows : HashMap U StoredRow) (subjectId : String) : List StoredRow :=
  (rows.entries.map Prod.snd).filter (fun row => decide (row.subjectId = subjectId))

/-- `UPDATE rbac_sessions SET version = $1 WHERE subject_id = $2` -/
def setVersion (rows : HashMap U StoredRow) (subjectId : String) (version : UInt64) : HashMap U StoredRow :=
  rows.mapValues (fun row => if row.subjectId = subjectId then { row with version := version.toInt64 } else row)

/-- The columns asked for, in the order of the source: what they hold, or the first that is not found. -/
def decode {α : Type} (reader : RowReader) (columns cols : List String) (row : α) :
    Except (DbSessionStoreError U) (Option α) :=
  match reader.firstUnread columns "rbac_sessions" cols with
  | some col => .error (.column col)
  | none => .ok (some row)

theorem decode_eq_ok {α : Type} {reader : RowReader} {columns cols : List String} {row : α} {loaded : Option α}
    (h : decode (U := U) reader columns cols row = .ok loaded) : loaded = some row := by
  unfold decode at h
  split at h
  · cases h
  · exact (Except.ok.inj h).symm

theorem decode_of_readsAll {α : Type} {reader : RowReader} {columns cols : List String}
    (h : reader.ReadsAll columns "rbac_sessions") (hsub : cols ⊆ columns) (row : α) :
    decode (U := U) reader columns cols row = .ok (some row) := by
  unfold decode
  rw [RowReader.firstUnread_of_readsAll h hsub]

theorem decode_of_prefixed {α : Type} {reader : RowReader} {columns cols : List String} {col : String}
    (h : reader.Prefixed) (hno : "rbac_sessions" ++ col ∉ columns) (row : α) :
    decode (U := U) reader columns (col :: cols) row = .error (.column col) := by
  unfold decode
  rw [h.firstUnread_cons hno]

/-- The newest row of the subject, cut to its version, the one column the caller uses. -/
def loadSessionMetadata (newest : List StoredRow → Option StoredRow) (d : DbSessionStore U) (subjectId : String) :
    Except (DbSessionStoreError U) (Option UInt64) :=
  if d.reachable then
    match newest (ofSubject d.rows subjectId) with
    | some row =>
      decode d.reader metadataColumns ["version", "id", "subject_id", "active_roles", "context", "expires_at", "created_at"]
        row.version.toUInt64
    | none => .ok none
  else .error .database

theorem loadSessionMetadata_of_reads {d : DbSessionStore U} (newest : List StoredRow → Option StoredRow)
    (hreachable : d.reachable = true) (hreads : ReadsSessions d.reader) (subjectId : String) :
    d.loadSessionMetadata newest subjectId =
      .ok ((newest (ofSubject d.rows subjectId)).map (fun row => row.version.toUInt64)) := by
  unfold loadSessionMetadata
  rw [if_pos hreachable]
  cases newest (ofSubject d.rows subjectId) with
  | none => rfl
  | some row => exact decode_of_readsAll hreads.metadata (by decide) _

/-- **A driver that puts the table's name before the column's loads no version of a subject with a session.** -/
theorem loadSessionMetadata_of_prefixed {d : DbSessionStore U} (newest : List StoredRow → Option StoredRow)
    (hreader : d.reader.Prefixed) {subjectId : String} (hstored : newest (ofSubject d.rows subjectId) ≠ none)
    (loaded : Option UInt64) : d.loadSessionMetadata newest subjectId ≠ .ok loaded := by
  obtain ⟨stored, hget⟩ := Option.ne_none_iff_exists'.1 hstored
  unfold loadSessionMetadata
  rw [hget]
  dsimp only
  rw [decode_of_prefixed hreader (by decide)]
  split <;> nofun

/-- The version of the newest row, 0 without rows. -/
def subjectVersion (newest : List StoredRow → Option StoredRow) (rows : HashMap U StoredRow) (sid : String) : UInt64 :=
  ((newest (ofSubject rows sid)).map (fun row => row.version.toUInt64)).getD 0

def bumpVersion (d : DbSessionStore U) (subjectId : String) (version : UInt64) :
    Except (DbSessionStoreError U) (DbSessionStore U) :=
  if d.reachable then .ok { d with rows := setVersion d.rows subjectId version } else .error .database

def cleanupExpired (d : DbSessionStore U) (now : Int) : Except (DbSessionStoreError U) (DbSessionStore U × Nat) :=
  if d.reachable then
    let rows := d.rows.retain (fun _ row => decide (¬ row.expiresAt < now))
    .ok ({ d with rows }, d.rows.len - rows.len)
  else .error .database

variable [DecidableEq U]

/-- The columns of the statement do not include the version, which takes its default. -/
def saveSession (d : DbSessionStore U) (row : SessionRow U) : Except (DbSessionStoreError U) (DbSessionStore U) :=
  if d.reachable ∧ d.rows.get? row.id = none then
    .ok { d with rows := d.rows.insert row.id ⟨row.subjectId, row.activeRoles, 0, row.expiresAt, row.createdAt⟩ }
  else .error .database

/-- The row of a loaded session, its version not among the columns selected. -/
def loadedRow (rows : HashMap U StoredRow) (id : U) : Option (SessionRow U) :=
  (rows.get? id).map (fun row => ⟨id, row.subjectId, row.activeRoles, 0, row.expiresAt, row.createdAt⟩)

/-- A context that is not found is logged, and none. -/
def loadSession (d : DbSessionStore U) (id : U) : Except (DbSessionStoreError U) (Option (SessionRow U)) :=
  if d.reachable then
    match loadedRow d.rows id with
    | some row => decode d.reader sessionColumns ["active_roles", "expires_at", "created_at", "subject_id"] row
    | none => .ok none
  else .error .database

theorem loadSession_of_reads {d : DbSessionStore U} (hreachable : d.reachable = true)
    (hreads : ReadsSessions d.reader) (id : U) : d.loadSession id = .ok (loadedRow d.rows id) := by
  unfold loadSession
  rw [if_pos hreachable]
  cases loadedRow d.rows id with
  | none => rfl
  | some row => exact decode_of_readsAll hreads.session (by decide) row

/-- **Nor a session that is stored.** -/
theorem loadSession_of_prefixed {d : DbSessionStore U} (hreader : d.reader.Prefixed) {id : U}
    (hstored : d.rows.get? id ≠ none) (loaded : Option (SessionRow U)) : d.loadSession id ≠ .ok loaded := by
  obtain ⟨stored, hget⟩ := Option.ne_none_iff_exists'.1 hstored
  unfold loadSession loadedRow
  rw [hget, Option.map_some]
  dsimp only
  rw [decode_of_prefixed hreader (by decide)]
  split <;> nofun

def deleteSession (d : DbSessionStore U) (id : U) : Except (DbSessionStoreError U) (DbSessionStore U) :=
  if d.reachable then .ok { d with rows := d.rows.remove id } else .error .database

def updateRoles (d : DbSessionStore U) (id : U) (activeRoles : Finset String) :
    Except (DbSessionStoreError U) (DbSessionStore U) :=
  if d.reachable then
    match d.rows.get? id with
    | some row => .ok { d with rows := d.rows.insert id { row with activeRoles } }
    | none => .error (.notFound id)
  else .error .database

end DbSessionStore

end Rbac
end Kirino
