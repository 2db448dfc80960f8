import Kirino.Auth.Credential
import Kirino.Lib.RowReader
/-!
# DbRevocation — the shared revocation table, and its agreement with the process-local one (`src/database/db_revocation.rs`)

The database store answers no errors: a statement that fails is logged, and a read that fails is no record.  A driver
that puts the table's name before the column's finds no column of the row, so every record reads as none, and the two
backends agree exactly where no token is refused (`backends_agree_iff`).
The table itself keeps the greatest instant of a key where the map keeps the last.  Read by the column's name the two
agree as long as the records of a key do not go back, which the manager's calls see to when no string is both a user id
and another kind of key (`Ordered`, `backends_agree_of_reads`).
-/
namespace Kirino
namespace Auth

open Lib (HashMap Machine RowReader subI64)

/-- The table of keys and instants, whether the database answers, and how its driver finds a column. -/
structure DbRevocationStore where
  table : HashMap String Int
  reachable : Bool
  reader : RowReader

namespace DbRevocationStore

/-- `INSERT .. ON CONFLICT (key) DO UPDATE SET not_before = GREATEST(jwt_revocations.not_before, $2)` -/
def upsert (table : HashMap String Int) (key : String) (notBefore : Int) : HashMap String Int :=
  match table.get? key with
  | some old => table.insert key (max old notBefore)
  | none => table.insert key notBefore

def revoke (d : DbRevocationStore) (key : String) (notBefore : Int) : Option Unit × DbRevocationStore :=
  (some (), if d.reachable then { d with table := upsert d.table key notBefore } else d)

/-- `SELECT not_before FROM jwt_revocations WHERE key = $1`; a row that does not decode is no record. -/
def getNotBefore (d : DbRevocationStore) (key : String) : Option Int :=
  if d.reachable then (d.table.get? key).bind (d.reader.read ["not_before"] "jwt_revocations" "not_before") else none

/-- `DELETE FROM jwt_revocations WHERE not_before < $1` -/
def cleanupBefore (d : DbRevocationStore) (cutoff : Int) : DbRevocationStore :=
  if d.reachable then { d with table := d.table.retain (fun _ nb => decide (¬ nb < cutoff)) } else d

instance : RevocationBackend DbRevocationStore := ⟨revoke, getNotBefore, cleanupBefore⟩

/-- A store over an empty table. -/
def new (reader : RowReader) : DbRevocationStore := ⟨HashMap.empty, true, reader⟩

/-- **A driver that puts the table's name before the column's reads no record.** -/
theorem getNotBefore_of_prefixed {d : DbRevocationStore} (h : d.reader.Prefixed) (key : String) :
    RevocationBackend.getNotBefore d key = none := by
  have hno : d.reader.read ["not_before"] "jwt_revocations" "not_before" = fun _ : Int => none :=
    funext (h.read_eq_none (by decide))
  change (if d.reachable then (d.table.get? key).bind _ else none) = none
  rw [hno]
  split <;> simp

theorem run_reader (s : Statement) (d : DbRevocationStore) : (s.run d).2.reader = d.reader := by
  cases s with
  | revoke key notBefore =>
    change (if d.reachable then { d with table := upsert d.table key notBefore } else d).reader = d.reader
    split <;> rfl
  | cleanupBefore cutoff =>
    change (cleanupBefore d cutoff).reader = d.reader
    unfold cleanupBefore
    split <;> rfl

end DbRevocationStore

/-- The map after the statement's record, before any sweep. -/
def Statement.recorded (b : MemoryRevocationBackend) : Statement → HashMap String Int
  | .revoke key notBefore => b.map.insert key notBefore
  | .cleanupBefore _ => b.map

/-- The map stays within its cap, so that no call's record sweeps. -/
def WithinCap (b : MemoryRevocationBackend) (e : JwtEvent) : Prop :=
  ∀ s ∈ e.statement, (s.recorded b).len ≤ revocationMaxEntries

instance (b : MemoryRevocationBackend) (e : JwtEvent) : Decidable (WithinCap b e) :=
  inferInstanceAs (Decidable (∀ s ∈ e.statement, _ ≤ _))

theorem run_of_withinCap {b : MemoryRevocationBackend} {e : JwtEvent} (hcap : WithinCap b e) {s : Statement}
    (hs : e.statement = some s) : (s.run b).1 = some () := by
  cases s with
  | revoke key notBefore =>
    simp [Statement.run, RevocationBackend.revoke, MemoryRevocationBackend.revoke,
      HashMap.insertSweep_of_le (hcap _ hs)]
  | cleanupBefore cutoff => rfl

/-! ## Where no token is refused -/

section
variable {J : JwtCrate} {σ : Type} [RevocationBackend σ]

/-- The answer of a call that no record refuses. -/
def unrefusedAnswer (m : JwtManager J) (e : JwtEvent) : JwtAnswer :=
  match e.call with
  | .issue request => .issued (m.issueWithOptions e.now request)
  | .verifyWithRevocation token => .verified (m.verify e.now token)
  | .cleanupRevocation life => .done ((subI64 e.now life).map (fun _ => ()))
  | _ => .done (some ())

/-- The token of the call, if it verifies, is issued after the record of each of its keys. -/
def Unrevoked (m : JwtManager J) (b : σ) (e : JwtEvent) : Prop :=
  match e.call with
  | .verifyWithRevocation token =>
    ∀ c ∈ (m.verify e.now token).toOption, ∀ key ∈ JwtManager.revocationKeys c,
      ∀ notBefore ∈ RevocationBackend.getNotBefore b key, notBefore < c.iat
  | _ => True

instance (m : JwtManager J) (b : σ) (e : JwtEvent) : Decidable (Unrevoked m b e) := by
  unfold Unrevoked
  split <;> infer_instance

theorem out_eq_unrefusedAnswer_iff {m : JwtManager J} {b : σ} {e : JwtEvent}
    (hrun : ∀ s, e.statement = some s → (s.run b).1 = some ()) :
    (jwtMachine σ m).out b e = unrefusedAnswer m e ↔ Unrevoked m b e := by
  obtain ⟨now, call⟩ := e
  cases call with
  | issue request => exact iff_of_true rfl trivial
  | revokeToken jti => exact iff_of_true (congrArg JwtAnswer.done (hrun _ rfl)) trivial
  | revokeAllForUser userId => exact iff_of_true (congrArg JwtAnswer.done (hrun _ rfl)) trivial
  | revokeSession sessionId => exact iff_of_true (congrArg JwtAnswer.done (hrun _ rfl)) trivial
  | cleanupRevocation life =>
    refine iff_of_true ?_ trivial
    simp only [jwtMachine, jwtAnswer, JwtManager.cleanupRevocation, unrefusedAnswer]
    cases subI64 now life <;> rfl
  | verifyWithRevocation token =>
    change JwtAnswer.verified (m.verifyWithRevocation b now token) = .verified (m.verify now token) ↔
      ∀ c ∈ (m.verify now token).toOption, _
    rw [JwtAnswer.verified.injEq, JwtManager.verifyWithRevocation_eq_verify_iff]
    cases m.verify now token <;> simp [Except.toOption]

end

section
variable {J : JwtCrate} {m : JwtManager J}

theorem unrevoked_of_prefixed {d : DbRevocationStore} (h : d.reader.Prefixed) (e : JwtEvent) : Unrevoked m d e := by
  unfold Unrevoked
  split
  · intro c _ key _ notBefore hrec
    rw [DbRevocationStore.getNotBefore_of_prefixed h] at hrec
    cases hrec
  · trivial

/-- A database whose records do not read refuses nothing. -/
theorem outs_of_prefixed {d : DbRevocationStore} (h : d.reader.Prefixed) (es : List JwtEvent) :
    (jwtMachine DbRevocationStore m).outs d es = es.map (unrefusedAnswer m) := by
  refine (jwtMachine DbRevocationStore m).outs_eq_map (fun _ _ => True) (fun d => d.reader.Prefixed) _
    (fun d e hd _ => ⟨?_, ?_⟩) d es h ((jwtMachine DbRevocationStore m).along_of_forall _ d es (fun _ _ _ => trivial))
  · rw [jwtMachine_step]
    cases e.statement with
    | none => exact hd
    | some s => exact (congrArg RowReader.Prefixed (d.run_reader s)).mpr hd
  · refine (out_eq_unrefusedAnswer_iff (fun s _ => ?_)).2 (unrevoked_of_prefixed hd e)
    cases s <;> rfl

/-- **The two backends agree exactly where no revoked token is presented**: with a driver that puts the table's name
before the column's and the map within its cap, every call is answered alike if and only if no call verifies a token
that is otherwise good and has a record from its issue on. -/
theorem backends_agree_iff (m : JwtManager J) {reader : RowReader} (hreader : reader.Prefixed) (es : List JwtEvent)
    (hcap : (jwtMachine MemoryRevocationBackend m).Along WithinCap MemoryRevocationBackend.new es) :
    (jwtMachine MemoryRevocationBackend m).outs MemoryRevocationBackend.new es =
        (jwtMachine DbRevocationStore m).outs (DbRevocationStore.new reader) es ↔
      (jwtMachine MemoryRevocationBackend m).Along (Unrevoked m) MemoryRevocationBackend.new es := by
  rw [outs_of_prefixed (d := DbRevocationStore.new reader) hreader]
  exact (jwtMachine MemoryRevocationBackend m).outs_eq_map_iff (Unrevoked m) WithinCap (fun _ => True) _
    (fun _ _ _ hwithin => out_eq_unrefusedAnswer_iff (fun _ => run_of_withinCap hwithin)) (fun _ _ _ _ => trivial)
    MemoryRevocationBackend.new es trivial hcap

end

/-- Tokens revoked, tokens presented, and none of the first among the second. -/
def revocationHistory : List JwtEvent :=
  [⟨1000, .issue aliceRequest⟩, ⟨1000, .revokeAllForUser "user-2"⟩, ⟨1001, .revokeToken "jti-2"⟩,
    ⟨1002, .verifyWithRevocation "token-1"⟩, ⟨1003, .revokeSession "sess-123"⟩, ⟨4602, .cleanupRevocation 3600⟩,
    ⟨4700, .verifyWithRevocation "token-1"⟩]

theorem backends_agree_iff_alice :
    (jwtMachine MemoryRevocationBackend (tableJwtManager jwtTokens)).outs MemoryRevocationBackend.new revocationHistory =
      (jwtMachine DbRevocationStore (tableJwtManager jwtTokens)).outs (DbRevocationStore.new RowReader.prefixed)
        revocationHistory :=
  (backends_agree_iff (tableJwtManager jwtTokens) RowReader.prefixed_prefixed revocationHistory (by decide)).2 (by decide)

/-- A token revoked and presented a second later. -/
def revokedHistory : List JwtEvent := [⟨1000, .revokeToken "jti-1"⟩, ⟨1001, .verifyWithRevocation "token-1"⟩]

/-- **The database backend accepts a revoked token.** -/
theorem backends_differ_revoked :
    RowReader.prefixed.Prefixed ∧ revokedHistory.Pairwise (fun e f => e.now ≤ f.now) ∧
      (jwtMachine MemoryRevocationBackend (tableJwtManager jwtTokens)).Along WithinCap MemoryRevocationBackend.new
        revokedHistory ∧
      (jwtMachine MemoryRevocationBackend (tableJwtManager jwtTokens)).outs MemoryRevocationBackend.new revokedHistory =
        [.done (some ()), .verified (.error (.error "token has been revoked"))] ∧
      (jwtMachine DbRevocationStore (tableJwtManager jwtTokens)).outs (DbRevocationStore.new RowReader.prefixed)
        revokedHistory = [.done (some ()), .verified (.ok jwtClaims)] :=
  ⟨RowReader.prefixed_prefixed, by decide, by decide, rfl, rfl⟩

/-! ## The simulation, by the column's name -/

/-- The database answers, its records read, and its table and the map have the same records. -/
structure SameRecords (b : MemoryRevocationBackend) (d : DbRevocationStore) : Prop where
  reachable : d.reachable = true
  reads : d.reader.reads ["not_before"] "jwt_revocations" "not_before" = true
  records : ∀ key, b.map.get? key = d.table.get? key

/-- A statement that records does not go behind the record of its key, and does not take the map over its cap. -/
def Forward (b : MemoryRevocationBackend) : Statement → Prop
  | .revoke key notBefore =>
    (∀ old, b.map.get? key = some old → old ≤ notBefore) ∧ (b.map.insert key notBefore).len ≤ revocationMaxEntries
  | .cleanupBefore _ => True

section
variable {b : MemoryRevocationBackend} {d : DbRevocationStore}

theorem getNotBefore_of_sameRecords (h : SameRecords b d) (key : String) :
    RevocationBackend.getNotBefore b key = RevocationBackend.getNotBefore d key := by
  have hread : d.reader.read ["not_before"] "jwt_revocations" "not_before" = (some : Int → Option Int) :=
    funext (RowReader.read_of_reads h.reads)
  change b.map.get? key = if d.reachable then (d.table.get? key).bind _ else none
  rw [if_pos h.reachable, hread, Option.bind_fun_some, h.records]

theorem upsert_of_le {table : HashMap String Int} {key : String} {notBefore : Int}
    (h : ∀ old, table.get? key = some old → old ≤ notBefore) :
    DbRevocationStore.upsert table key notBefore = table.insert key notBefore := by
  unfold DbRevocationStore.upsert
  cases hg : table.get? key with
  | none => rfl
  | some old => simp [Int.max_eq_right (h old hg)]

/-- **A forward statement ends alike on both, and keeps their records the same.** -/
theorem sameRecords_run {s : Statement} (hf : Forward b s) (h : SameRecords b d) :
    (s.run b).1 = (s.run d).1 ∧ SameRecords (s.run b).2 (s.run d).2 := by
  obtain ⟨hup, hreads, hrec⟩ := h
  cases s with
  | revoke key notBefore =>
    obtain ⟨hle, hcap⟩ := hf
    have hmem : (Statement.revoke key notBefore).run b = (some (), ⟨b.map.insert key notBefore⟩) := by
      simp [Statement.run, RevocationBackend.revoke, MemoryRevocationBackend.revoke, HashMap.insertSweep_of_le hcap]
    have hdb : (Statement.revoke key notBefore).run d = (some (), { d with table := d.table.insert key notBefore }) := by
      simp [Statement.run, RevocationBackend.revoke, DbRevocationStore.revoke, hup,
        upsert_of_le (fun old hold => hle old ((hrec key).trans hold))]
    rw [hmem, hdb]
    refine ⟨rfl, hup, hreads, fun key' => ?_⟩
    simp [HashMap.get?_insert, hrec]
  | cleanupBefore cutoff =>
    have hdb : (Statement.cleanupBefore cutoff).run d =
        (some (), { d with table := d.table.retain (fun _ nb => decide (¬ nb < cutoff)) }) := by
      simp [Statement.run, RevocationBackend.cleanupBefore, DbRevocationStore.cleanupBefore, hup]
    rw [hdb]
    refine ⟨rfl, hup, hreads, fun key => ?_⟩
    have hkeep : (fun nb : Int => decide (nb ≥ cutoff)) = fun nb => decide (¬ nb < cutoff) := by
      funext nb
      exact decide_eq_decide.2 Int.not_lt.symm
    simp only [Statement.run, RevocationBackend.cleanupBefore, MemoryRevocationBackend.cleanupBefore,
      HashMap.get?_retain, hrec, hkeep]

end

/-! ## The order of the records -/

/-- No string is revoked both as a user id and as a token id or a session key. -/
def Apart (c c' : JwtCall) : Prop :=
  match c, c' with
  | .revokeAllForUser userId, .revokeToken jti => userId ≠ jti
  | .revokeAllForUser userId, .revokeSession sessionId => userId ≠ sessionKey sessionId
  | _, _ => True

instance (c c' : JwtCall) : Decidable (Apart c c') := by
  unfold Apart
  split <;> infer_instance

/-- A record is not ahead of the clock, a user's by a second at most. -/
def Ordered (isUser : String → Prop) (b : MemoryRevocationBackend) (now : Int) : Prop :=
  ∀ key nb, b.map.get? key = some nb → nb ≤ now + 1 ∧ (¬ isUser key → nb ≤ now)

section
variable {J : JwtCrate} {m : JwtManager J} {b : MemoryRevocationBackend} {isUser : String → Prop} {e : JwtEvent}

/-- **A call within the cap keeps the records in order.** -/
theorem ordered_step (huser : ∀ key, e.call = .revokeAllForUser key → isUser key) (hcap : WithinCap b e)
    (h : Ordered isUser b e.now) : Ordered isUser ((jwtMachine MemoryRevocationBackend m).step b e) e.now := by
  rw [jwtMachine_step]
  cases hs : e.statement with
  | none => exact h
  | some s =>
    cases s with
    | revoke key notBefore =>
      intro key' nb hget
      have hins : (b.map.insert key notBefore).get? key' = some nb := by
        simpa [Statement.run, RevocationBackend.revoke, MemoryRevocationBackend.revoke,
          HashMap.insertSweep_of_le (hcap _ hs)] using hget
      rw [HashMap.get?_insert] at hins
      by_cases hkey : key' = key
      · subst hkey
        rw [if_pos rfl] at hins
        obtain rfl := Option.some.inj hins
        rcases notBefore_of_statement hs with ⟨rfl, -⟩ | ⟨rfl, hcall⟩
        · exact ⟨by omega, fun _ => Int.le_refl _⟩
        · exact ⟨Int.le_refl _, fun hno => absurd (huser key' hcall) hno⟩
      · rw [if_neg hkey] at hins
        exact h key' nb hins
    | cleanupBefore cutoff =>
      intro key nb hget
      exact h key nb ((HashMap.get?_retain_eq_some _ _ _ _).1 hget).1

theorem forward_of_ordered (happart : ∀ key, isUser key → Apart (.revokeAllForUser key) e.call) (hcap : WithinCap b e)
    (h : Ordered isUser b e.now) : ∀ s ∈ e.statement, Forward b s := by
  intro s hs
  cases s with
  | cleanupBefore cutoff => trivial
  | revoke key notBefore =>
    refine ⟨fun old hold => ?_, hcap _ hs⟩
    obtain ⟨hle, hother⟩ := h key old hold
    rcases notBefore_of_statement hs with ⟨rfl, hno⟩ | ⟨rfl, -⟩
    · apply hother
      intro huser
      have hap := happart key huser
      obtain ⟨now, call⟩ := e
      cases call with
      | revokeToken jti => cases hs; exact hap rfl
      | revokeSession sessionId => cases hs; exact hap rfl
      | revokeAllForUser userId => exact hno userId rfl
      | _ => simp [JwtEvent.statement] at hs
    · exact hle

/-- **By the column's name the two backends agree**: in every run of calls whose clock does not go back, with the kinds
of keys apart, the map within its cap and the database reachable, every call is answered alike. -/
theorem backends_agree_of_reads (m : JwtManager J) {reader : RowReader}
    (hreads : reader.reads ["not_before"] "jwt_revocations" "not_before" = true) (es : List JwtEvent)
    (hclock : es.Pairwise (fun e f => e.now ≤ f.now)) (happart : ∀ e ∈ es, ∀ f ∈ es, Apart e.call f.call)
    (hcap : (jwtMachine MemoryRevocationBackend m).Along WithinCap MemoryRevocationBackend.new es) :
    (jwtMachine MemoryRevocationBackend m).outs MemoryRevocationBackend.new es =
      (jwtMachine DbRevocationStore m).outs (DbRevocationStore.new reader) es := by
  let isUser : String → Prop := fun key => ∃ f ∈ es, f.call = .revokeAllForUser key
  -- no call's record goes back, since the records stay in order along the run
  have hforward : (jwtMachine MemoryRevocationBackend m).Along (fun b e => ∀ s ∈ e.statement, Forward b s)
      MemoryRevocationBackend.new es := by
    have hordered := (jwtMachine MemoryRevocationBackend m).along_timed JwtEvent.now
      (fun b e => WithinCap b e ∧ e ∈ es) (Ordered isUser)
      (fun _ _ _ hle h key nb hget => ⟨by have := (h key nb hget).1; omega,
        fun hno => by have := (h key nb hget).2 hno; omega⟩)
      (fun _ e h hP => ordered_step (fun _ hcall => ⟨e, hP.2, hcall⟩) hP.1 h) MemoryRevocationBackend.new es
      (fun _ _ => nofun) hclock ((jwtMachine MemoryRevocationBackend m).along_and _ _ _ es hcap (fun _ he => he))
    refine (jwtMachine MemoryRevocationBackend m).along_imp (fun b e ⟨hord, hwithin, he⟩ => ?_) hordered
    refine forward_of_ordered (fun key ⟨f, hf, hcall⟩ => ?_) hwithin hord
    rw [← hcall]
    exact happart f hf e he
  refine (jwtMachine MemoryRevocationBackend m).outs_eq_of_simulation _ (fun b e => ∀ s ∈ e.statement, Forward b s)
    SameRecords (fun b d e hsame hf => ?_) _ _ es ⟨rfl, hreads, fun _ => rfl⟩ hforward
  refine ⟨?_, jwtMachine_out_congr m
    (fun now token => JwtManager.verifyWithRevocation_congr (getNotBefore_of_sameRecords hsame) now token)
    (fun s hs => (sameRecords_run (hf s hs) hsame).1)⟩
  rw [jwtMachine_step, jwtMachine_step]
  cases hs : e.statement with
  | none => exact hsame
  | some s => exact (sameRecords_run (hf s hs) hsame).2

end

end Auth
end Kirino
