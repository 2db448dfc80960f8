import Mathlib.Tactic.IntervalCases
import Kirino.Rbac.SessionManager
import Kirino.Rbac.Store.Memory
/-!
# SessionVersions — a version bump against the roles revoked before it (`rbac/session/mod.rs`)

A creation reads the subject's roles first and its version later.  A revocation and a bump that both land between the
two readings leave a fresh session with the revoked role (`stale_role_of_race`).  Where no bump of the subject meets
such a creation in flight, every session with a role revoked before the bump stays below the current version.
-/
namespace Kirino
namespace Rbac

open Lib (HashMap Machine Pool PoolEvent PoolInv)

section Definitions
variable {A C U S P E : Type} [AssignmentStore A S P E] [ConstraintStore C E] [Subject S] [DecidableEq U]

/-- The store assigns the role to a subject of this id. -/
def Assigned (store : A) (sid roleName : String) : Prop :=
  ∃ s roles, subjectId s = sid ∧ rolesOf store s = .ok roles ∧ roleName ∈ roles

def versionOf (w : SessionState A C U S) (sid : String) : Nat := (w.subjectVersions.get? sid).getD 0

/-- The call creates a session with the role: it has read the subject's roles, and not yet the version. -/
def SessionCall.PendingRole (sid roleName : String) : SessionCall U S → Prop
  | .createConstraints subject active _ => subjectId subject = sid ∧ roleName ∈ active
  | .createVersion subject active _ => subjectId subject = sid ∧ roleName ∈ active
  | _ => False

/-- A bump of the subject does not wrap the counter, and meets no creation in flight with a role no longer assigned. -/
def RaceFree (sid : String) (p : SessionPool A C U S) : SessionEvent A C U S → Prop
  | .spawn call => call.Starts
  | .env (.bumpVersionForSubject subject) => subjectId subject = sid →
      versionOf p.shared sid + 1 < 2 ^ 64 ∧ ∀ (i : Nat) (call : SessionCall U S) roleName, p.threads[i]? = some call →
        call.PendingRole sid roleName → Assigned p.shared.assignmentStore sid roleName
  | _ => True

/-- **No stale role survives a bump**: from a bump of the subject on, as long as a role is not assigned, the stored
sessions of the subject with the role active are below the current version. -/
def NoStaleRole (p₀ : SessionPool A C U S) (es : List (SessionEvent A C U S)) (sid : String) : Prop :=
  ∀ k n subject roleName, es[k]? = some (.env (.bumpVersionForSubject subject)) → subjectId subject = sid →
    k < n → n ≤ es.length →
    (∀ m, k ≤ m → m ≤ n → ¬ Assigned (sessionMachine.run p₀ (es.take m)).shared.assignmentStore sid roleName) →
    ∀ id s, (sessionMachine.run p₀ (es.take n)).shared.sessions.get? id = some s → subjectId s.subject = sid →
      roleName ∈ s.activeRoles → s.version < currentVersion (sessionMachine.run p₀ (es.take n)).shared s.subject

/-- Every session stored, or carried by a call, has the property. -/
def Everywhere (Q : RbacSession U S → Prop) (p : SessionPool A C U S) : Prop :=
  PoolInv (fun w => ∀ id s, w.sessions.get? id = some s → Q s) (fun _ _ call => ∀ s, call.Carries s → Q s) p

end Definitions

theorem SessionCall.Starts.not_carries {U S : Type} {call : SessionCall U S} (h : call.Starts) (s : RbacSession U S) :
    ¬ call.Carries s := by
  cases call <;> first | exact not_false | exact h.elim

section Steps
variable {A C U S P E : Type} [AssignmentStore A S P E] [ConstraintStore C E] [Subject S] [DecidableEq U]
variable {p : SessionPool A C U S} {e : SessionEvent A C U S} {sid : String}

theorem versionOf_step (h : RaceFree sid p e) : versionOf p.shared sid ≤ versionOf (sessionMachine.step p e).shared sid ∧
    ∀ subject, e = .env (.bumpVersionForSubject subject) → subjectId subject = sid →
      versionOf (sessionMachine.step p e).shared sid = versionOf p.shared sid + 1 := by
  cases e with
  | spawn call => exact ⟨Nat.le_refl _, nofun⟩
  | step i input =>
    refine ⟨Nat.le_of_eq ?_, nofun⟩
    cases hcall : p.threads[i]? with
    | none =>
      have hstep : sessionMachine.step p (.step i input) = p := (sessionProgram.machine_step_none hcall input).1
      rw [hstep]
    | some call =>
      have hstep := congrArg Pool.shared (sessionProgram.machine_step hcall input).1
      have hversions := (next_effect i input p.shared call).frame.2.2
      exact congrArg (fun versions => (versions.get? sid).getD 0) (hversions.symm.trans
        (congrArg SessionState.subjectVersions hstep.symm))
  | env op =>
    have hversions := (op_frame E op p.shared).2.2
    have hstep : (sessionMachine.step p (.env op)).shared = (op.run E p.shared).1 := rfl
    unfold versionOf
    rw [hstep, hversions]
    cases op with
    | bumpVersionForSubject subject =>
      by_cases hid : subjectId subject = sid
      · obtain ⟨hlt, -⟩ := h hid
        have hnext : wrappingSucc (currentVersion p.shared subject) = versionOf p.shared sid + 1 := by
          unfold currentVersion wrappingSucc
          rw [hid]
          exact Nat.mod_eq_of_lt hlt
        dsimp only
        rw [hid, HashMap.get?_insert_self, hnext]
        exact ⟨Nat.le_succ _, fun _ _ _ => rfl⟩
      · dsimp only
        rw [HashMap.get?_insert_of_ne _ _ (Ne.symm hid)]
        refine ⟨Nat.le_refl _, fun subject' he hid' => absurd ?_ hid⟩
        cases he
        exact hid'
    | deactivateRole now id r => exact ⟨Nat.le_refl _, nofun⟩
    | destroySession id => exact ⟨Nat.le_refl _, nofun⟩
    | revokeAllForSubject s => exact ⟨Nat.le_refl _, nofun⟩
    | cleanupExpired now => exact ⟨Nat.le_refl _, nofun⟩
    | assignments store => exact ⟨Nat.le_refl _, nofun⟩
    | constraints store => exact ⟨Nat.le_refl _, nofun⟩

/-- **A property of the sessions, over one event**: it is kept when it goes over to fewer roles, holds of the sessions
that creations stamp, and stays with the role an activation adds. -/
theorem Everywhere.step {Q Q' : RbacSession U S → Prop} (h : Everywhere Q p) (he : RaceFree sid p e)
    (hshrinks : ∀ s s', Q s → s'.activeRoles ⊆ s.activeRoles → s'.subject = s.subject → s'.version = s.version → Q' s')
    (hversion : ∀ (i : Nat) subject active ttl, p.threads[i]? = some (.createVersion subject active ttl) →
      ∀ s, s.subject = subject → s.activeRoles = active → s.version = currentVersion p.shared subject → Q' s)
    (hadds : ∀ (i : Nat) call s r, p.threads[i]? = some call → call.Adds s r → Q s →
      (call = .activateRoles s r → ∃ roles, rolesOf p.shared.assignmentStore s.subject = .ok roles ∧ r ∈ roles) →
      Q' { s with activeRoles := insert r s.activeRoles }) :
    Everywhere Q' (sessionMachine.step p e) := by
  have hQ : ∀ s, Q s → Q' s := fun s hs => hshrinks s s hs (Finset.Subset.refl _) rfl rfl
  refine PoolInv.step h e ?_ ?_ ?_ ?_
  · rintro call rfl
    exact ⟨fun id s hs => hQ s (h.1 id s hs), fun s hs => absurd hs (SessionCall.Starts.not_carries he s),
      fun j call' hcall' s hs => hQ s (hcall' s hs)⟩
  · rintro i input call rfl hcall hfacts
    refine ⟨fun id s hs => ?_, fun s hs => ?_, fun j call' _ _ hcall' s hs => hQ s (hcall' s hs)⟩
    · rcases (next_effect i input p.shared call).stored hs with hs | hinsert | ⟨s₀, r, hadd, rfl, hroles⟩
      · exact hQ s (h.1 id s hs)
      · exact hQ s (hfacts s (by rw [hinsert]; rfl))
      · refine hadds i call s₀ r hcall hadd (hfacts s₀ ?_) hroles
        rcases hadd.eq with rfl | rfl <;> rfl
    · rcases (next_goesOn i input p.shared call).carries hs with hs | ⟨id, hs⟩ | ⟨subject, active, ttl, rfl, hfields⟩
      · exact hQ s (hfacts s hs)
      · exact hQ s (h.1 id s hs)
      · exact hversion i subject active ttl hcall s hfields.1 hfields.2.1 hfields.2.2
  · rintro i input rfl _
    exact ⟨fun id s hs => hQ s (h.1 id s hs), fun j call' hcall' s hs => hQ s (hcall' s hs)⟩
  · rintro op rfl
    refine ⟨fun id s' hs' => ?_, fun j call' _ hcall' s hs => hQ s (hcall' s hs)⟩
    obtain ⟨s, hs, hroles, -, hsubject, hversion⟩ := op_shrinks E op p.shared id s' hs'
    exact hshrinks s s' (h.1 id s hs) hroles hsubject hversion

/-! ## Before the bump: no session is ahead of the counter -/

/-- The session's version is at most the subject's. -/
def NotAhead (sid : String) (v : Nat) (s : RbacSession U S) : Prop := subjectId s.subject = sid → s.version ≤ v

theorem notAhead_step (h : Everywhere (NotAhead sid (versionOf p.shared sid)) p) (he : RaceFree sid p e) :
    Everywhere (NotAhead sid (versionOf (sessionMachine.step p e).shared sid)) (sessionMachine.step p e) := by
  have hmono := (versionOf_step he).1
  refine h.step he ?_ ?_ ?_
  · intro s s' hs _ hsubject hversion hid
    rw [hversion]
    exact Nat.le_trans (hs (hsubject ▸ hid)) hmono
  · rintro i subject active ttl _ s rfl rfl hversion hid
    rw [hversion, currentVersion, hid]
    exact hmono
  · intro i call s r _ _ hs _ hid
    exact Nat.le_trans (hs hid) hmono

/-! ## After the bump: the role is gone from every session that is not behind it -/

/-- A session of the subject with the role is behind the version. -/
def Behind (sid roleName : String) (v : Nat) (s : RbacSession U S) : Prop :=
  subjectId s.subject = sid → roleName ∈ s.activeRoles → s.version < v

/-- The call is not about to give the role to a session that is not behind the version. -/
def SessionCall.Harmless (sid roleName : String) (v : Nat) (call : SessionCall U S) : Prop :=
  ¬ call.PendingRole sid roleName ∧
    ∀ s, call = .activateConstraints s roleName → subjectId s.subject = sid → s.version < v

/-- What holds from the bump to version `v` on. -/
structure Bumped (sid roleName : String) (v : Nat) (p : SessionPool A C U S) : Prop where
  reached : v ≤ versionOf p.shared sid
  behind : Everywhere (Behind sid roleName v) p
  harmless : ∀ (i : Nat) call, p.threads[i]? = some call → call.Harmless sid roleName v

omit [DecidableEq U] in
theorem harmless_returned {roleName : String} {v : Nat} : (SessionCall.returned : SessionCall U S).Harmless sid roleName v :=
  ⟨not_false, by simp⟩

theorem harmless_next {roleName : String} {v : Nat} {call : SessionCall U S} (i : Nat) (input : StepInput U)
    (w : SessionState A C U S) (h : call.Harmless sid roleName v) (hrole : ¬ Assigned w.assignmentStore sid roleName) :
    (call.next i input w).2.1.Harmless sid roleName v := by
  have hgoes := next_goesOn i input w call
  generalize (call.next i input w).1 = w', (call.next i input w).2.1 = call' at hgoes ⊢
  have hread : ∀ subject (requested : Finset String) roles, rolesOf w.assignmentStore subject = .ok roles →
      ¬ (subjectId subject = sid ∧ roleName ∈ requested.filter (fun r => r ∈ roles)) :=
    fun subject requested roles hroles hr => hrole ⟨subject, roles, hr.1, hroles, (Finset.mem_filter.1 hr.2).2⟩
  cases hgoes with
  | returned => exact harmless_returned
  | waits => exact h
  | toConstraints subject requested ttl roles hroles => exact ⟨hread subject requested roles hroles, by simp⟩
  | toVersion subject requested ttl roles hroles => exact ⟨hread subject requested roles hroles, by simp⟩
  | validated => exact ⟨h.1, by simp⟩
  | stamped => exact ⟨not_false, by simp⟩
  | found => exact ⟨not_false, by simp⟩
  | assigned session r roles hroles hr =>
    refine ⟨not_false, fun s hs hid => ?_⟩
    obtain ⟨rfl, rfl⟩ := SessionCall.activateConstraints.inj hs
    exact absurd ⟨session.subject, roles, hid, hroles, hr⟩ hrole

/-- **An event keeps it**, as long as the role is not assigned. -/
theorem Bumped.step {roleName : String} {v : Nat} (h : Bumped sid roleName v p) (he : RaceFree sid p e)
    (hrole : ¬ Assigned p.shared.assignmentStore sid roleName) : Bumped sid roleName v (sessionMachine.step p e) := by
  refine ⟨Nat.le_trans h.reached (versionOf_step he).1, ?_, ?_⟩
  · refine h.behind.step he ?_ ?_ ?_
    · intro s s' hs hroles hsubject hversion hid hr
      rw [hversion]
      exact hs (hsubject ▸ hid) (hroles hr)
    · rintro i subject active ttl hcall s rfl rfl _ hid hr
      exact absurd ⟨hid, hr⟩ (h.harmless i _ hcall).1
    · intro i call s r hcall hadd hs hroles hid hr
      by_cases hsame : r = roleName
      · subst hsame
        rcases hadd.eq with rfl | rfl
        · obtain ⟨roles, hread, hmem⟩ := hroles rfl
          exact absurd ⟨s.subject, roles, hid, hread, hmem⟩ hrole
        · exact (h.harmless i _ hcall).2 s rfl hid
      · exact hs hid (Finset.mem_of_mem_insert_of_ne hr (Ne.symm hsame))
  · have hpool : PoolInv (fun _ => True) (fun _ _ call => call.Harmless sid roleName v) p := ⟨trivial, h.harmless⟩
    have hnext : PoolInv (fun _ => True) (fun _ _ call => call.Harmless sid roleName v) (sessionMachine.step p e) := by
      refine PoolInv.step hpool e ?_ ?_ ?_ ?_
      · rintro call rfl
        refine ⟨trivial, ?_, fun _ _ h => h⟩
        cases call <;> first | exact he.elim | exact ⟨not_false, nofun⟩
      · rintro i input call rfl _ hcall
        exact ⟨trivial, harmless_next i input p.shared hcall hrole, fun _ _ _ _ h => h⟩
      · rintro i input rfl _
        exact ⟨trivial, fun _ _ h => h⟩
      · rintro op rfl
        exact ⟨trivial, fun _ _ _ h => h⟩
    exact hnext.2

/-- **A bump brings it about** for every role not assigned at the bump. -/
theorem bumped_of_bump {roleName : String} {subject : S} (h : Everywhere (NotAhead sid (versionOf p.shared sid)) p)
    (hid : subjectId subject = sid) (he : RaceFree sid p (.env (.bumpVersionForSubject subject)))
    (hrole : ¬ Assigned p.shared.assignmentStore sid roleName) :
    Bumped sid roleName (versionOf p.shared sid + 1)
      (sessionMachine.step p (.env (.bumpVersionForSubject subject))) := by
  have hpending := (he hid).2
  refine ⟨Nat.le_of_eq ((versionOf_step he).2 subject rfl hid).symm, ?_, fun i call hcall => ?_⟩
  · exact ⟨fun id s hs hid' _ => Nat.lt_succ_of_le (h.1 id s hs hid'),
      fun i call hcall s hs hid' _ => Nat.lt_succ_of_le (h.2 i call hcall s hs hid')⟩
  · refine ⟨fun hr => hrole (hpending i call roleName hcall hr), fun s hs hid' => ?_⟩
    exact Nat.lt_succ_of_le (h.2 i call hcall s (by rw [hs]; rfl) hid')

end Steps

section Main
variable {A C U S P E : Type} [AssignmentStore A S P E] [ConstraintStore C E] [Subject S] [DecidableEq U]

/-- **In every run without the race, no stale role survives a bump.** -/
theorem noStaleRole_of_raceFree (store : A) (constraintStore : Option C) (sid : String)
    (es : List (SessionEvent A C U S))
    (hfree : sessionMachine.Along (RaceFree sid) (freshManager store constraintStore) es) :
    NoStaleRole (freshManager store constraintStore) es sid := by
  intro k n subject roleName hk hid hkn hn hrevoked id s hs hsid hr
  generalize hp₀ : freshManager store constraintStore = p₀ at *
  have hbefore : Everywhere (NotAhead sid (versionOf (sessionMachine.run p₀ (es.take k)).shared sid))
      (sessionMachine.run p₀ (es.take k)) := by
    have hsplit := sessionMachine.along_append (RaceFree sid) p₀ (es.take k) (es.drop k)
    rw [List.take_append_drop] at hsplit
    refine sessionMachine.run_invariant (RaceFree sid) (fun p => Everywhere (NotAhead sid (versionOf p.shared sid)) p)
      (fun p e h he => notAhead_step h he) p₀ (es.take k) ?_ (hsplit.1 hfree).1
    subst hp₀
    exact PoolInv.empty _ (fun id s hs => by cases hs)
  have hafter : ∀ m, k + 1 ≤ m → m ≤ n → Bumped sid roleName
      (versionOf (sessionMachine.run p₀ (es.take k)).shared sid + 1) (sessionMachine.run p₀ (es.take m)) := by
    intro m hkm
    induction m, hkm using Nat.le_induction with
    | base =>
      intro _
      rw [sessionMachine.run_take_succ p₀ hk]
      exact bumped_of_bump hbefore hid (sessionMachine.along_getElem? _ p₀ es hfree k _ hk)
        (hrevoked k (Nat.le_refl k) (Nat.le_of_lt hkn))
    | succ m hkm ih =>
      intro hmn
      have hm : es[m]? = some es[m] := List.getElem?_eq_getElem (by omega)
      rw [sessionMachine.run_take_succ p₀ hm]
      exact (ih (by omega)).step (sessionMachine.along_getElem? _ p₀ es hfree m _ hm)
        (hrevoked m (by omega) (by omega))
  have hfinal := hafter n hkn (Nat.le_refl n)
  rw [currentVersion, hsid]
  exact Nat.lt_of_lt_of_le (hfinal.behind.1 id s hs hsid hr) hfinal.reached

/-- **The race leaves the role**: a bump that meets a creation with the role about to read the version ends, two steps
of that creation later, in a stored session with the role at the current version. -/
theorem stale_role_of_race {p : SessionPool A C U S} {i : Nat} {subject : S} {active : Finset String} {ttl : Int}
    (hfree : p.shared.lock = none) (hcall : p.threads[i]? = some (.createVersion subject active ttl))
    (stamp last : StepInput U) :
    let p' := sessionMachine.run p [.env (.bumpVersionForSubject subject), .step i stamp, .step i last]
    ∃ s, p'.shared.sessions.get? stamp.uuid = some s ∧ s.subject = subject ∧ s.activeRoles = active ∧
      s.version = currentVersion p'.shared subject := by
  have hi : i < p.threads.length := (List.getElem?_eq_some_iff.1 hcall).1
  let w : SessionState A C U S := (SessionOp.run E (.bumpVersionForSubject subject) p.shared).1
  let s : RbacSession U S := ⟨stamp.uuid, subject, active, currentVersion w subject, stamp.now + ttl⟩
  have hbump : sessionMachine.step p (.env (.bumpVersionForSubject subject)) = ⟨w, p.threads⟩ := rfl
  have hstamp : sessionMachine.step ⟨w, p.threads⟩ (.step i stamp) = ⟨w, p.threads.set i (.createInsert s)⟩ :=
    (sessionProgram.machine_step (p := ⟨w, p.threads⟩) hcall stamp).1
  have hinsert : (sessionMachine.step ⟨w, p.threads.set i (.createInsert s)⟩ (.step i last)).shared =
      { w with sessions := w.sessions.insert s.id s } := by
    have hstep := (sessionProgram.machine_step (p := ⟨w, p.threads.set i (.createInsert s)⟩)
      (List.getElem?_set_self hi) last).1
    refine (congrArg Pool.shared hstep).trans ?_
    have hlock : w.lock.isSome = false := by
      have hnone : w.lock = none := hfree
      rw [hnone]
      rfl
    dsimp only [sessionProgram, SessionCall.next, createInsertStep]
    rw [hlock]
    rfl
  dsimp only
  rw [Machine.run_cons, hbump, Machine.run_cons, hstamp, Machine.run_cons, Machine.run_nil, hinsert]
  exact ⟨s, HashMap.get?_insert_self _ _ _, rfl, rfl, rfl⟩

end Main

/-! ## Two runs: the revocation and the bump within a creation, and after it -/

def operatorStore : InMemoryAssignmentStore String TestPerm := InMemoryAssignmentStore.new.assignRole "alice" "operator"

/-- The creation has read the role when it is revoked and the version bumped. -/
def raceRun : List (SessionEvent (InMemoryAssignmentStore String TestPerm) InMemoryConstraintStore Nat String) :=
  [.spawn (.createRoles "alice" {"operator"} 60), .step 0 ⟨0, 0⟩,
    .env (.assignments (operatorStore.revokeRole "alice" "operator")), .env (.bumpVersionForSubject "alice"),
    .step 0 ⟨0, 7⟩, .step 0 ⟨0, 0⟩]

/-- The creation has returned when the role is revoked and the version bumped. -/
def orderedRun : List (SessionEvent (InMemoryAssignmentStore String TestPerm) InMemoryConstraintStore Nat String) :=
  [.spawn (.createRoles "alice" {"operator"} 60), .step 0 ⟨0, 0⟩, .step 0 ⟨0, 7⟩, .step 0 ⟨0, 0⟩,
    .env (.assignments (operatorStore.revokeRole "alice" "operator")), .env (.bumpVersionForSubject "alice")]

theorem not_assigned_revoked : ¬ Assigned (operatorStore.revokeRole "alice" "operator") "alice" "operator" := by
  rintro ⟨s, roles, hid, hroles, hr⟩
  obtain rfl : s = "alice" := hid
  obtain rfl := Except.ok.inj hroles
  exact absurd hr (by decide)

theorem raceRun_session : ((sessionMachine.run (freshManager operatorStore none) raceRun).shared.sessions.get? 7).map
    (fun s => (s.subject, s.activeRoles, s.version)) = some ("alice", {"operator"}, 1) := by decide +kernel

theorem not_noStaleRole_race : ¬ NoStaleRole (freshManager operatorStore none) raceRun "alice" := by
  intro h
  obtain ⟨s, hs, hfields⟩ := Option.map_eq_some_iff.1 raceRun_session
  obtain ⟨hsubject, hroles, hversion⟩ : s.subject = "alice" ∧ s.activeRoles = {"operator"} ∧ s.version = 1 := by
    simpa using hfields
  have hrevoked : ∀ m, 3 ≤ m → m ≤ 6 →
      ¬ Assigned (sessionMachine.run (freshManager operatorStore none) (raceRun.take m)).shared.assignmentStore
        "alice" "operator" := by
    intro m hm hm'
    interval_cases m <;> exact not_assigned_revoked
  have hlt := h 3 6 "alice" "operator" rfl rfl (by decide) (by decide) hrevoked 7 s hs (by rw [hsubject]; rfl)
    (by rw [hroles]; exact Finset.mem_singleton_self _)
  rw [hversion, hsubject] at hlt
  exact absurd hlt (by decide +kernel)

theorem orderedRun_raceFree : sessionMachine.Along (RaceFree "alice") (freshManager operatorStore none) orderedRun := by
  refine ⟨trivial, trivial, trivial, trivial, trivial, fun _ => ⟨by decide +kernel, fun i call r hcall hr => ?_⟩, trivial⟩
  have hthreads : (sessionMachine.run (freshManager operatorStore none) (orderedRun.take 5)).threads = [.returned] := rfl
  obtain rfl : call = .returned :=
    List.mem_singleton.1 (hthreads ▸ List.mem_of_getElem? hcall)
  exact hr.elim

theorem noStaleRole_of_raceFree_ordered : NoStaleRole (freshManager operatorStore none) orderedRun "alice" :=
  noStaleRole_of_raceFree operatorStore none "alice" orderedRun orderedRun_raceFree

end Rbac
end Kirino
