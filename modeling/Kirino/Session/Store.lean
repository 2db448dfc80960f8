import Kirino.Lib.Entries
import Kirino.Lib.HashMap
import Kirino.Lib.Instants
/-!
# Store — the session rows of the database (`packages/session/src/store.rs`)

The table has one row for each session id, and a revocation writes the instant into the row.  A session answers as valid
exactly when the last row opened for its id is not revoked and not at its end, whatever the prunes deleted meanwhile
(`isSessionValid_exact`); a revoked id stays invalid as long as its row stands, and is revoked by one call only
(`revocation_permanent`).  An instant is stored as the column holds it, the function `column`; a statement may be lost,
or be executed and its answer lost.
-/
namespace Kirino
namespace Session

open Lib (HashMap Machine earliestInstant latestInstant)

/-- A row, under its session id. -/
structure SessionEntry (U : Type) where
  userId : U
  tokenHash : String
  expiresAt : Int
  revokedAt : Option Int
deriving DecidableEq

/-- How a statement fails: it is not executed, or it is and the answer does not arrive. -/
inductive DbFault where
  | lost
  | unacknowledged
deriving DecidableEq

inductive StoreCall (U : Type) where
  | createSession (sessionId userId : U) (tokenHash : String) (expiresAt : Int)
  | revokeSession (sessionId : U)
  | revokeAllForUser (userId : U)
  | isSessionValid (sessionId : U)
  | findSession (sessionId : U)
  | pruneExpired (olderThan : Int)
deriving DecidableEq

/-- A call with the database's `NOW()`, the process's own clock, and the fault its statement meets. -/
structure StoreEvent (U : Type) where
  now : Int
  clock : Int
  fault : Option DbFault
  call : StoreCall U

inductive StoreAnswer (U : Type) where
  | created (result : Except String Unit)
  | revoked (result : Except String Bool)
  | revokedAll (result : Except String Nat)
  | valid (result : Except String Bool)
  | found (result : Except String (Option (U × String)))
  | pruned (result : Except String Nat)
  | panicked

abbrev SessionTable (U : Type) := HashMap U (SessionEntry U)

namespace SessionStore

variable {U : Type}

/-! ## The statements -/

/-- A statement's effect and its result, as the fault lets them through. -/
def execute {α : Type} (fault : Option DbFault) (table : SessionTable U) (message : String) (r : SessionTable U × α) :
    SessionTable U × Except String α :=
  match fault with
  | none => (r.1, .ok r.2)
  | some .lost => (table, .error message)
  | some .unacknowledged => (r.1, .error message)

theorem execute_fst {α : Type} {fault : Option DbFault} {message : String} {r : SessionTable U × α} :
    (execute fault table message r).1 = if fault ≠ some .lost then r.1 else table := by
  cases fault with
  | none => simp [execute]
  | some fault => cases fault <;> simp [execute]

variable [DecidableEq U]

/-- `INSERT INTO kirino_sessions ..`, refused when the session id is there. -/
def insertRow (table : SessionTable U) (sessionId : U) (row : SessionEntry U) : SessionTable U × Bool :=
  match table.get? sessionId with
  | some _ => (table, false)
  | none => (table.insert sessionId row, true)

/-- `UPDATE .. SET revoked_at = NOW() WHERE session_id = $1 AND revoked_at IS NULL` -/
def revokeRow (table : SessionTable U) (now : Int) (sessionId : U) : SessionTable U × Nat :=
  match table.get? sessionId with
  | some row =>
    if row.revokedAt = none then (table.insert sessionId { row with revokedAt := some now }, 1) else (table, 0)
  | none => (table, 0)

def ownedActive (userId : U) (row : SessionEntry U) : Bool := decide (row.userId = userId ∧ row.revokedAt = none)

theorem ownedActive_iff {userId : U} {row : SessionEntry U} :
    ownedActive userId row = true ↔ row.userId = userId ∧ row.revokedAt = none := decide_eq_true_iff

/-- `UPDATE .. SET revoked_at = NOW() WHERE user_id = $1 AND revoked_at IS NULL` -/
def revokeRows (table : SessionTable U) (now : Int) (userId : U) : SessionTable U × Nat :=
  (table.mapValues (fun row => if ownedActive userId row then { row with revokedAt := some now } else row),
    table.count (fun _ row => ownedActive userId row))

/-- `SELECT .. WHERE session_id = $1 AND revoked_at IS NULL AND expires_at > NOW()` -/
def selectValid (table : SessionTable U) (now : Int) (sessionId : U) : Option (SessionEntry U) :=
  (table.get? sessionId).filter (fun row => decide (row.revokedAt = none ∧ now < row.expiresAt))

/-- `DELETE FROM kirino_sessions WHERE expires_at < $1` -/
def deleteExpired (table : SessionTable U) (cutoff : Int) : SessionTable U × Nat :=
  (table.retain (fun _ row => decide (¬ row.expiresAt < cutoff)), table.count (fun _ row => decide (row.expiresAt < cutoff)))

/-- The cutoff, `none` where the difference of the clock and the duration panics. -/
def pruneCutoff (clock olderThan : Int) : Option Int :=
  if earliestInstant ≤ clock - olderThan ∧ clock - olderThan ≤ latestInstant then some (clock - olderThan) else none

/-! ## The calls -/

section Calls
variable (column : Int → Int) (fault : Option DbFault) (table : SessionTable U)

def createSession (sessionId userId : U) (tokenHash : String) (expiresAt : Int) : SessionTable U × StoreAnswer U :=
  let r := execute fault table "session insert failed"
    (insertRow table sessionId ⟨userId, tokenHash, column expiresAt, none⟩)
  (r.1, .created (r.2.bind fun inserted => if inserted then .ok () else .error "session insert failed"))

def revokeSession (now : Int) (sessionId : U) : SessionTable U × StoreAnswer U :=
  let r := execute fault table "session revoke failed" (revokeRow table now sessionId)
  (r.1, .revoked (r.2.map (fun rowsAffected => decide (0 < rowsAffected))))

def revokeAllForUser (now : Int) (userId : U) : SessionTable U × StoreAnswer U :=
  let r := execute fault table "session revoke all failed" (revokeRows table now userId)
  (r.1, .revokedAll r.2)

def isSessionValid (now : Int) (sessionId : U) : SessionTable U × StoreAnswer U :=
  let r := execute fault table "session check failed" (table, selectValid table now sessionId)
  (r.1, .valid (r.2.map Option.isSome))

def findSession (now : Int) (sessionId : U) : SessionTable U × StoreAnswer U :=
  let r := execute fault table "session find failed" (table, selectValid table now sessionId)
  (r.1, .found (r.2.map (Option.map (fun row => (row.userId, row.tokenHash)))))

def pruneExpired (clock olderThan : Int) : SessionTable U × StoreAnswer U :=
  match pruneCutoff clock olderThan with
  | none => (table, .panicked)
  | some cutoff =>
    let r := execute fault table "session prune failed" (deleteExpired table (column cutoff))
    (r.1, .pruned r.2)

end Calls

def call (column : Int → Int) (table : SessionTable U) (event : StoreEvent U) : SessionTable U × StoreAnswer U :=
  match event.call with
  | .createSession sessionId userId tokenHash expiresAt =>
    createSession column event.fault table sessionId userId tokenHash expiresAt
  | .revokeSession sessionId => revokeSession event.fault table event.now sessionId
  | .revokeAllForUser userId => revokeAllForUser event.fault table event.now userId
  | .isSessionValid sessionId => isSessionValid event.fault table event.now sessionId
  | .findSession sessionId => findSession event.fault table event.now sessionId
  | .pruneExpired olderThan => pruneExpired column event.fault table event.clock olderThan

def machine (U : Type) [DecidableEq U] (column : Int → Int) : Machine (SessionTable U) (StoreEvent U) (StoreAnswer U) where
  step table event := (call column table event).1
  out table event := (call column table event).2

/-! ## What a call does to a session -/

/-- The statement is executed. -/
def Executed (event : StoreEvent U) : Prop := event.fault ≠ some .lost

instance (event : StoreEvent U) : Decidable (Executed event) := inferInstanceAs (Decidable (_ ≠ _))

variable {column : Int → Int} {table : SessionTable U} {event : StoreEvent U} {sessionId : U} {row : SessionEntry U}

/-- The id has a row that is not revoked. -/
def Active (table : SessionTable U) (session : U × SessionEntry U) : Prop :=
  table.get? session.1 = some session.2 ∧ session.2.revokedAt = none

theorem active_insertRow {new : SessionEntry U} (hnew : new.revokedAt = none) {session : U × SessionEntry U} :
    Active (insertRow table sessionId new).1 session ↔
      ((session.1 = sessionId ∧ session.2 = new) ∧ table.get? session.1 = none) ∨ Active table session := by
  obtain ⟨id, row⟩ := session
  unfold insertRow Active
  cases hget : table.get? sessionId with
  | some old =>
    refine ⟨Or.inr, fun h => h.resolve_left ?_⟩
    rintro ⟨⟨rfl, -⟩, hnone⟩
    rw [hget] at hnone
    cases hnone
  | none =>
    rw [HashMap.get?_insert]
    by_cases hid : id = sessionId
    · subst hid
      simp only [if_true, Option.some.injEq, hget, true_and, and_true, reduceCtorEq, false_and, or_false]
      exact ⟨fun h => h.1.symm, fun h => ⟨h.symm, h ▸ hnew⟩⟩
    · simp [hid]

theorem active_revokeRow {now : Int} {session : U × SessionEntry U} :
    Active (revokeRow table now sessionId).1 session ↔ Active table session ∧ session.1 ≠ sessionId := by
  obtain ⟨id, row⟩ := session
  unfold revokeRow Active
  cases hget : table.get? sessionId with
  | none =>
    refine ⟨fun h => ⟨h, ?_⟩, And.left⟩
    rintro rfl
    rw [hget] at h
    cases h.1
  | some old =>
    by_cases hactive : old.revokedAt = none
    · simp only [hactive, if_true, HashMap.get?_insert]
      by_cases hid : id = sessionId
      · subst hid
        simp only [if_true, Option.some.injEq, ne_eq, not_true, and_false, iff_false]
        rintro ⟨rfl, hnone⟩
        cases hnone
      · simp [hid]
    · simp only [hactive, if_false]
      refine ⟨fun h => ⟨h, ?_⟩, And.left⟩
      rintro rfl
      rw [hget] at h
      exact hactive (Option.some.inj h.1 ▸ h.2)

theorem active_revokeRows {now : Int} {userId : U} {session : U × SessionEntry U} :
    Active (revokeRows table now userId).1 session ↔ Active table session ∧ session.2.userId ≠ userId := by
  obtain ⟨id, row⟩ := session
  unfold revokeRows Active
  simp only [HashMap.get?_mapValues, Option.map_eq_some_iff]
  constructor
  · rintro ⟨⟨old, hget, hrow⟩, hactive⟩
    split at hrow
    · rw [← hrow] at hactive
      cases hactive
    · rename_i howned
      subst hrow
      exact ⟨⟨hget, hactive⟩, fun huser => howned (ownedActive_iff.2 ⟨huser, hactive⟩)⟩
  · rintro ⟨⟨hget, hactive⟩, huser⟩
    exact ⟨⟨row, hget, if_neg (fun howned => huser (ownedActive_iff.1 howned).1)⟩, hactive⟩

theorem active_deleteExpired {cutoff : Int} {session : U × SessionEntry U} :
    Active (deleteExpired table cutoff).1 session ↔ Active table session ∧ ¬ session.2.expiresAt < cutoff := by
  unfold deleteExpired Active
  rw [HashMap.get?_retain_eq_some, decide_eq_true_eq, and_right_comm]

/-- The call opens the row under the id. -/
def Opens (column : Int → Int) (event : StoreEvent U) (sessionId : U) (row : SessionEntry U) : Prop :=
  Executed event ∧ ∃ userId tokenHash expiresAt, event.call = .createSession sessionId userId tokenHash expiresAt ∧
    row = ⟨userId, tokenHash, column expiresAt, none⟩

/-- The call revokes the sessions of the id or of its user. -/
def Revokes (event : StoreEvent U) (sessionId : U) (row : SessionEntry U) : Prop :=
  Executed event ∧ (event.call = .revokeSession sessionId ∨ event.call = .revokeAllForUser row.userId)

/-- The call deletes the rows that ended before the cutoff. -/
def Prunes (column : Int → Int) (event : StoreEvent U) (cutoff : Int) : Prop :=
  Executed event ∧ ∃ olderThan clock', event.call = .pruneExpired olderThan ∧
    pruneCutoff event.clock olderThan = some clock' ∧ column clock' = cutoff

/-- **What a call does to the sessions that are not revoked.** -/
theorem active_step_iff (column : Int → Int) (table : SessionTable U) (event : StoreEvent U) (session : U × SessionEntry U) :
    Active ((machine U column).step table event) session ↔
      (Opens column event session.1 session.2 ∧ table.get? session.1 = none) ∨
      Active table session ∧ ¬ (Revokes event session.1 session.2 ∨ ∃ cutoff, Prunes column event cutoff ∧
        session.2.expiresAt < cutoff) := by
  obtain ⟨now, clock, fault, call⟩ := event
  by_cases hexec : fault = some .lost
  · subst hexec
    have hsame : (machine U column).step table ⟨now, clock, some .lost, call⟩ = table := by
      cases call with
      | pruneExpired olderThan =>
        simp only [machine, SessionStore.call, pruneExpired]
        cases pruneCutoff clock olderThan <;> rfl
      | _ => rfl
    simp [hsame, Opens, Revokes, Prunes, Executed]
  have hdone : ∀ {α : Type} {message : String} {r : SessionTable U × α}, (execute fault table message r).1 = r.1 := by
    intro α message r
    rw [execute_fst, if_pos hexec]
  simp only [machine, SessionStore.call, Opens, Revokes, Prunes, Executed, ne_eq, hexec, not_false_eq_true, true_and]
  cases call with
  | createSession sessionId userId tokenHash expiresAt =>
    simp only [createSession, hdone, active_insertRow]
    refine or_congr (and_congr_left (fun _ => ?_)) (by simp)
    constructor
    · rintro ⟨hid, hrow⟩
      exact ⟨userId, tokenHash, expiresAt, by rw [hid], hrow⟩
    · rintro ⟨userId', tokenHash', expiresAt', hcall, hrow⟩
      injection hcall with hid huser hhash hexpires
      rw [hrow, hid, huser, hhash, hexpires]
      exact ⟨rfl, rfl⟩
  | revokeSession sessionId =>
    simp only [revokeSession, hdone, active_revokeRow]
    simp [eq_comm]
  | revokeAllForUser userId =>
    simp only [revokeAllForUser, hdone, active_revokeRows]
    simp [eq_comm]
  | isSessionValid sessionId =>
    simp only [isSessionValid, hdone]
    simp
  | findSession sessionId =>
    simp only [findSession, hdone]
    simp
  | pruneExpired olderThan =>
    simp only [pruneExpired]
    cases hcut : pruneCutoff clock olderThan with
    | none => simp [hcut]
    | some cutoff =>
      simp only [hdone, active_deleteExpired]
      simp [hcut]

/-! ## What a session answers -/

/-- The last row opened for the id before event `k`, not revoked since. -/
def Standing (column : Int → Int) (events : List (StoreEvent U)) (k : Nat) (sessionId : U) (row : SessionEntry U) : Prop :=
  ∃ i event, i < k ∧ events[i]? = some event ∧ Opens column event sessionId row ∧
    ((machine U column).run HashMap.empty (events.take i)).get? sessionId = none ∧
    ∀ j f, i < j → j < k → events[j]? = some f → ¬ Revokes f sessionId row

variable {events : List (StoreEvent U)} {k : Nat}

/-- **Prunes go unseen**: a row that has not ended is there exactly when it was opened and not revoked since. -/
theorem active_iff_standing (hclock : ∀ f ∈ events.take k, ∀ cutoff, Prunes column f cutoff → cutoff ≤ row.expiresAt) :
    Active ((machine U column).run HashMap.empty (events.take k)) (sessionId, row) ↔
      Standing column events k sessionId row := by
  have hrun := Lib.Entries.in_take_iff (M := machine U column) Active
    (fun table event session => Opens column event session.1 session.2 ∧ table.get? session.1 = none)
    (fun event session => Revokes event session.1 session.2 ∨
      ∃ cutoff, Prunes column event cutoff ∧ session.2.expiresAt < cutoff)
    (active_step_iff column) (s := HashMap.empty) (fun a ha => nomatch ha.1) events k (sessionId, row)
  rw [hrun]
  refine exists_congr (fun i => exists_congr (fun event => and_congr_right (fun _ => and_congr_right (fun _ => ?_))))
  rw [and_assoc]
  refine and_congr_right (fun _ => and_congr_right (fun _ => ⟨fun h j f hij hjk hf hrev => ?_, ?_⟩))
  · exact h j f hij hjk hf (Or.inl hrev)
  · rintro h j f hij hjk hf (hrev | ⟨cutoff, hprunes, hended⟩)
    · exact h j f hij hjk hf hrev
    · have hbefore : f ∈ events.take k := List.mem_of_getElem? (by rw [List.getElem?_take, if_pos hjk, hf])
      exact absurd (hclock f hbefore cutoff hprunes) (Int.not_le.2 hended)

theorem selectValid_eq_some_iff {now : Int} :
    selectValid table now sessionId = some row ↔ Active table (sessionId, row) ∧ now < row.expiresAt := by
  unfold selectValid Active
  rw [Option.filter_eq_some_iff, decide_eq_true_eq, and_assoc]

section Answers
variable {now clock : Int}

theorem out_isSessionValid : (machine U column).out table ⟨now, clock, none, .isSessionValid sessionId⟩ =
    .valid (.ok (selectValid table now sessionId).isSome) := rfl

theorem out_findSession : (machine U column).out table ⟨now, clock, none, .findSession sessionId⟩ =
    .found (.ok ((selectValid table now sessionId).map (fun row => (row.userId, row.tokenHash)))) := rfl

theorem out_revokeSession : (machine U column).out table ⟨now, clock, none, .revokeSession sessionId⟩ =
    .revoked (.ok (decide (0 < (revokeRow table now sessionId).2))) := rfl

end Answers

/-- **A session is valid while it stands**: over any run whose prunes do not cut ahead of the database's clock, a check
answers yes exactly when the last row opened for the id is not revoked and not at its end, and a lookup answers that
row's user and hash. -/
theorem isSessionValid_exact (column : Int → Int) (events : List (StoreEvent U)) (k : Nat) (event : StoreEvent U)
    (sessionId : U) (hk : events[k]? = some event) (hfault : event.fault = none)
    (hclock : ∀ f ∈ events.take k, ∀ cutoff, Prunes column f cutoff → cutoff ≤ event.now) :
    (event.call = .isSessionValid sessionId →
      (((machine U column).outs HashMap.empty events)[k]? = some (.valid (.ok true)) ↔
        ∃ row, Standing column events k sessionId row ∧ event.now < row.expiresAt)) ∧
    (event.call = .findSession sessionId → ∀ userId tokenHash,
      (((machine U column).outs HashMap.empty events)[k]? = some (.found (.ok (some (userId, tokenHash)))) ↔
        ∃ row, Standing column events k sessionId row ∧ event.now < row.expiresAt ∧ row.userId = userId ∧
          row.tokenHash = tokenHash)) := by
  obtain ⟨now, clock, fault, call⟩ := event
  obtain rfl : fault = none := hfault
  have hselect : ∀ row, selectValid ((machine U column).run HashMap.empty (events.take k)) now sessionId = some row ↔
      Standing column events k sessionId row ∧ now < row.expiresAt := by
    intro row
    rw [selectValid_eq_some_iff]
    refine and_congr_left (fun hlive => active_iff_standing (fun f hf cutoff hprunes => ?_))
    exact Int.le_trans (hclock f hf cutoff hprunes) (Int.le_of_lt hlive)
  rw [Machine.outs_getElem?, hk, Option.map_some]
  constructor
  · rintro rfl
    rw [out_isSessionValid, Option.some.injEq, StoreAnswer.valid.injEq, Except.ok.injEq, Option.isSome_iff_exists]
    exact exists_congr hselect
  · rintro rfl userId tokenHash
    rw [out_findSession, Option.some.injEq, StoreAnswer.found.injEq, Except.ok.injEq, Option.map_eq_some_iff]
    refine exists_congr (fun row => ?_)
    rw [← and_assoc, ← hselect row, Prod.mk.injEq]

/-- A session is opened, found after a prune of the ended ones, revoked, and refused. -/
def revokedSession : List (StoreEvent String) :=
  [⟨0, 0, none, .createSession "s" "u" "h" 100⟩, ⟨50, 50, none, .pruneExpired 0⟩, ⟨60, 60, none, .isSessionValid "s"⟩,
    ⟨70, 70, some .unacknowledged, .revokeSession "s"⟩, ⟨80, 80, none, .revokeSession "s"⟩]

theorem isSessionValid_exact_open :
    ((machine String id).outs HashMap.empty revokedSession)[2]? = some (.valid (.ok true)) := by
  refine ((isSessionValid_exact id revokedSession 2 _ "s" rfl rfl ?_).1 rfl).2
    ⟨⟨"u", "h", 100, none⟩, ⟨0, _, by decide, rfl, ⟨by decide, "u", "h", 100, rfl, rfl⟩, rfl, ?_⟩, by decide⟩
  · rintro f hf cutoff ⟨-, olderThan, cut, hcall, hcut, rfl⟩
    simp only [revokedSession, List.take_succ_cons, List.take_zero, List.mem_cons, List.not_mem_nil, or_false] at hf
    rcases hf with rfl | rfl
    · cases hcall
    · cases hcall
      cases hcut
      decide
  · intro j f hj hk hf
    obtain rfl : j = 1 := by omega
    cases hf
    rintro ⟨-, hcall | hcall⟩ <;> cases hcall

/-! ## Revocation is for good -/

/-- The id has a revoked row of this end. -/
def RevokedUntil (table : SessionTable U) (sessionId : U) (expiresAt : Int) : Prop :=
  ∃ row, table.get? sessionId = some row ∧ row.revokedAt ≠ none ∧ row.expiresAt = expiresAt

theorem selectValid_of_revoked {expiresAt now : Int} (h : RevokedUntil table sessionId expiresAt) :
    selectValid table now sessionId = none := by
  obtain ⟨row, hget, hrevoked, -⟩ := h
  simp [selectValid, hget, hrevoked]

theorem revokeRow_of_revoked {expiresAt now : Int} (h : RevokedUntil table sessionId expiresAt) :
    revokeRow table now sessionId = (table, 0) := by
  obtain ⟨row, hget, hrevoked, -⟩ := h
  simp [revokeRow, hget, hrevoked]

theorem insertRow_of_revoked {expiresAt : Int} {new : SessionEntry U} (h : RevokedUntil table sessionId expiresAt) :
    insertRow table sessionId new = (table, false) := by
  obtain ⟨row, hget, -⟩ := h
  simp [insertRow, hget]

theorem get?_insertRow_of_some {id : U} {new : SessionEntry U} (hget : table.get? sessionId = some row) :
    (insertRow table id new).1.get? sessionId = some row := by
  unfold insertRow
  cases hid : table.get? id with
  | some old => exact hget
  | none =>
    have hne : sessionId ≠ id := by
      rintro rfl
      rw [hid] at hget
      cases hget
    rw [HashMap.get?_insert_of_ne _ _ hne, hget]

theorem get?_revokeRow_of_revoked {now : Int} {id : U} (hget : table.get? sessionId = some row)
    (hrevoked : row.revokedAt ≠ none) : (revokeRow table now id).1.get? sessionId = some row := by
  by_cases hid : sessionId = id
  · subst hid
    rw [revokeRow_of_revoked ⟨row, hget, hrevoked, rfl⟩, hget]
  · unfold revokeRow
    cases table.get? id with
    | none => exact hget
    | some old =>
      dsimp only
      split
      · rw [HashMap.get?_insert_of_ne _ _ hid, hget]
      · exact hget

theorem get?_revokeRows_of_revoked {now : Int} {userId : U} (hget : table.get? sessionId = some row)
    (hrevoked : row.revokedAt ≠ none) : (revokeRows table now userId).1.get? sessionId = some row := by
  have hkept : ¬ ownedActive userId row = true := fun howned => hrevoked (ownedActive_iff.1 howned).2
  simp only [revokeRows, HashMap.get?_mapValues, hget, Option.map_some, hkept, if_false, Bool.false_eq_true]

theorem get?_deleteExpired_of_le {cutoff : Int} (hget : table.get? sessionId = some row)
    (hle : cutoff ≤ row.expiresAt) : (deleteExpired table cutoff).1.get? sessionId = some row := by
  unfold deleteExpired
  rw [HashMap.get?_retain_eq_some]
  exact ⟨hget, decide_eq_true (Int.not_lt.2 hle)⟩

/-- **A revoked row stays** until a prune cuts after its end. -/
theorem revokedUntil_step {expiresAt : Int} (hprune : ∀ cutoff, Prunes column event cutoff → cutoff ≤ expiresAt)
    (h : RevokedUntil table sessionId expiresAt) :
    RevokedUntil ((machine U column).step table event) sessionId expiresAt := by
  obtain ⟨now, clock, fault, call⟩ := event
  obtain ⟨row, hget, hrevoked, rfl⟩ := h
  refine ⟨row, ?_, hrevoked, rfl⟩
  have hkeep : ∀ {α : Type} {message : String} {r : SessionTable U × α},
      (fault ≠ some .lost → r.1.get? sessionId = some row) → (execute fault table message r).1.get? sessionId = some row := by
    intro α message r hr
    rw [execute_fst]
    split
    · next hexec => exact hr hexec
    · exact hget
  cases call with
  | createSession id userId tokenHash expiresAt => exact hkeep (fun _ => get?_insertRow_of_some hget)
  | revokeSession id => exact hkeep (fun _ => get?_revokeRow_of_revoked hget hrevoked)
  | revokeAllForUser userId => exact hkeep (fun _ => get?_revokeRows_of_revoked hget hrevoked)
  | isSessionValid id => exact hkeep (fun _ => hget)
  | findSession id => exact hkeep (fun _ => hget)
  | pruneExpired olderThan =>
    simp only [machine, SessionStore.call, pruneExpired]
    cases hcut : pruneCutoff clock olderThan with
    | none => exact hget
    | some cutoff =>
      refine hkeep (fun hexec => get?_deleteExpired_of_le hget ?_)
      exact hprune (column cutoff) ⟨hexec, olderThan, cutoff, rfl, hcut, rfl⟩

theorem get?_revokeRow_self {now : Int} (hget : table.get? sessionId = some row) :
    RevokedUntil (revokeRow table now sessionId).1 sessionId row.expiresAt := by
  unfold revokeRow
  rw [hget]
  dsimp only
  split
  · exact ⟨_, HashMap.get?_insert_self _ _ _, by simp, rfl⟩
  · next hrevoked => exact ⟨row, hget, hrevoked, rfl⟩

theorem get?_revokeRows_self {now : Int} (hget : table.get? sessionId = some row) :
    RevokedUntil (revokeRows table now row.userId).1 sessionId row.expiresAt := by
  by_cases hrevoked : row.revokedAt = none
  · have howned : ownedActive row.userId row = true := ownedActive_iff.2 ⟨rfl, hrevoked⟩
    refine ⟨{ row with revokedAt := some now }, ?_, by simp, rfl⟩
    rw [revokeRows, HashMap.get?_mapValues, hget, Option.map_some, if_pos howned]
  · exact ⟨row, get?_revokeRows_of_revoked hget hrevoked, hrevoked, rfl⟩

/-- A revocation of the id, or of its user, leaves the row revoked. -/
theorem revokedUntil_of_revokes (hget : table.get? sessionId = some row) (h : Revokes event sessionId row) :
    RevokedUntil ((machine U column).step table event) sessionId row.expiresAt := by
  obtain ⟨now, clock, fault, call⟩ := event
  obtain ⟨hexec, rfl | rfl⟩ := h
  all_goals replace hexec : fault ≠ some .lost := hexec
  · simp only [machine, SessionStore.call, revokeSession, execute_fst]
    rw [if_pos hexec]
    exact get?_revokeRow_self hget
  · simp only [machine, SessionStore.call, revokeAllForUser, execute_fst]
    rw [if_pos hexec]
    exact get?_revokeRows_self hget

/-- What the call is answered for a session that is out for good. -/
def Refused (call : StoreCall U) (fault : Option DbFault) (sessionId : U) (answer : Option (StoreAnswer U)) : Prop :=
  (∀ userId tokenHash expiresAt, call = .createSession sessionId userId tokenHash expiresAt →
    answer = some (.created (.error "session insert failed"))) ∧
  (fault = none → (call = .isSessionValid sessionId → answer = some (.valid (.ok false))) ∧
    (call = .findSession sessionId → answer = some (.found (.ok none))) ∧
    (call = .revokeSession sessionId → answer = some (.revoked (.ok false))))

theorem refused_of_revoked {expiresAt : Int} (h : RevokedUntil table sessionId expiresAt) :
    Refused event.call event.fault sessionId (some ((machine U column).out table event)) := by
  obtain ⟨now, clock, fault, call⟩ := event
  refine ⟨?_, ?_⟩
  · rintro userId tokenHash expiresAt' rfl
    simp only [machine, SessionStore.call, createSession, insertRow_of_revoked h]
    cases fault with
    | none => rfl
    | some fault => cases fault <;> rfl
  · rintro rfl
    refine ⟨?_, ?_, ?_⟩
    · rintro rfl
      rw [out_isSessionValid, selectValid_of_revoked h]
      rfl
    · rintro rfl
      rw [out_findSession, selectValid_of_revoked h]
      rfl
    · rintro rfl
      rw [out_revokeSession, revokeRow_of_revoked h]
      rfl

/-- **A revocation is for good**: once the row of an id is revoked, by its id or by its user, and until a prune cuts after
its end, the id is no valid session, no second revocation finds it, and no new session opens under it. -/
theorem revocation_permanent (column : Int → Int) (events : List (StoreEvent U)) (i k : Nat) (e f : StoreEvent U)
    (sessionId : U) (row : SessionEntry U) (hik : i < k) (hi : events[i]? = some e) (hk : events[k]? = some f)
    (hrow : ((machine U column).run HashMap.empty (events.take i)).get? sessionId = some row)
    (hrevokes : Revokes e sessionId row) :
    (∃ q g cutoff, i < q ∧ q < k ∧ events[q]? = some g ∧ Prunes column g cutoff ∧ row.expiresAt < cutoff) ∨
      Refused f.call f.fault sessionId ((machine U column).outs HashMap.empty events)[k]? := by
  by_cases hpruned : ∃ q g cutoff, i < q ∧ q < k ∧ events[q]? = some g ∧ Prunes column g cutoff ∧ row.expiresAt < cutoff
  · exact Or.inl hpruned
  refine Or.inr ?_
  have hstart : RevokedUntil ((machine U column).run HashMap.empty (events.take (i + 1))) sessionId row.expiresAt := by
    rw [Machine.run_take_succ _ _ hi]
    exact revokedUntil_of_revokes hrow hrevokes
  have hrevoked := (machine U column).run_invariant_between (fun table => RevokedUntil table sessionId row.expiresAt)
    HashMap.empty events (Nat.succ_le_of_lt hik) hstart (fun q g hiq hqk hg h => revokedUntil_step (fun cutoff hprunes => by
      by_contra hcut
      exact hpruned ⟨q, g, cutoff, hiq, hqk, hg, hprunes, Int.not_le.1 hcut⟩) h)
  rw [Machine.outs_getElem?, hk]
  exact refused_of_revoked hrevoked

theorem revocation_permanent_second :
    (∃ q g cutoff, 3 < q ∧ q < 4 ∧ revokedSession[q]? = some g ∧ Prunes id g cutoff ∧ (100 : Int) < cutoff) ∨
      Refused (.revokeSession "s") none "s" ((machine String id).outs HashMap.empty revokedSession)[4]? :=
  revocation_permanent id revokedSession 3 4 _ _ "s" ⟨"u", "h", 100, none⟩ (by decide) rfl rfl rfl
    ⟨by decide, Or.inl rfl⟩

end SessionStore
end Session
end Kirino
