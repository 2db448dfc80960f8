import Mathlib.Data.Finset.Insert
import Mathlib.Data.Finset.SDiff
import Kirino.Rbac.DbSessionManager
import Kirino.Rbac.Store.Memory
/-!
# DbActivation — concurrent role changes of one stored session (`rbac/session/db.rs`, `database/db_session.rs`)

A role change writes back the whole list that it loaded.  Where the row's other roles are still those loaded when it is
written (`WritesCurrent`), every change that answers `Ok` does to the row what it does alone, in the order of their
answers.  Elsewhere a change undoes what came in between, a deactivation too.
-/
namespace Kirino
namespace Rbac

open Lib (HashMap Machine Pool PoolEvent PoolInv)
open Lib.Program (spawned spawned_append getElem?_spawned_append)
open DbSessionStore (loadedRow)

/-! ## The calls of one session -/

section Calls
variable {A C U S : Type}

/-- What the call makes of the roles of its session when it runs alone. -/
def DbSessionCall.execute (roles : Finset String) : DbSessionCall U S → Finset String
  | .activateLoad _ roleName => insert roleName roles
  | .deactivateLoad _ roleName => roles.erase roleName
  | _ => roles

/-- The call starts a role change of the session. -/
def DbSessionCall.OnSession (id : U) : DbSessionCall U S → Prop
  | .activateLoad sessionId _ => sessionId = id
  | .deactivateLoad sessionId _ => sessionId = id
  | _ => False

/-- The call is where the role change has got to. -/
def DbSessionCall.Continues (call start : DbSessionCall U S) : Prop :=
  match call with
  | .activateLoad id roleName => start = .activateLoad id roleName
  | .activateRoles row _ roleName => start = .activateLoad row.id roleName
  | .activateConstraints row roleName => start = .activateLoad row.id roleName
  | .activateUpdate row roleName => start = .activateLoad row.id roleName
  | .deactivateLoad id roleName => start = .deactivateLoad id roleName
  | .deactivateUpdate row roleName => start = .deactivateLoad row.id roleName
  | .returned => True
  | _ => False

variable [DecidableEq U]

/-- The row's roles, other than the one to be changed, are those that were loaded. -/
def LoadedCurrent (w : DbSessionState A C U) (row : SessionRow U) (roleName : String) : Prop :=
  w.store.reachable = true → ∀ stored ∈ w.store.rows.get? row.id,
    stored.activeRoles.erase roleName = row.activeRoles.erase roleName

instance (w : DbSessionState A C U) (row : SessionRow U) (roleName : String) : Decidable (LoadedCurrent w row roleName) :=
  inferInstanceAs (Decidable (_ → _))

def DbSessionCall.EditsCurrent (w : DbSessionState A C U) : DbSessionCall U S → Prop
  | .activateUpdate row roleName => LoadedCurrent w row roleName
  | .deactivateUpdate row roleName => LoadedCurrent w row roleName
  | _ => True

instance (w : DbSessionState A C U) : ∀ call : DbSessionCall U S, Decidable (call.EditsCurrent w)
  | .activateUpdate row roleName => inferInstanceAs (Decidable (LoadedCurrent w row roleName))
  | .deactivateUpdate row roleName => inferInstanceAs (Decidable (LoadedCurrent w row roleName))
  | .createRoles _ _ _ => isTrue trivial
  | .createConstraints _ _ _ => isTrue trivial
  | .createSave _ _ => isTrue trivial
  | .activateLoad _ _ => isTrue trivial
  | .activateRoles _ _ _ => isTrue trivial
  | .activateConstraints _ _ => isTrue trivial
  | .deactivateLoad _ _ => isTrue trivial
  | .bumpRead _ => isTrue trivial
  | .bumpWrite _ _ => isTrue trivial
  | .returned => isTrue trivial

/-- A role list is written over the row it was made from. -/
def WritesCurrent (p : DbSessionPool A C U S) : DbSessionEvent A C U S → Prop
  | .step i _ => ∀ call ∈ p.threads[i]?, call.EditsCurrent p.shared
  | _ => True

instance (p : DbSessionPool A C U S) : ∀ e : DbSessionEvent A C U S, Decidable (WritesCurrent p e)
  | .step i _ => inferInstanceAs (Decidable (∀ call ∈ p.threads[i]?, call.EditsCurrent p.shared))
  | .spawn _ => isTrue trivial
  | .env _ => isTrue trivial

/-- Role changes of the session, while the two stores and the reachability of the database may change. -/
def RoleChangesOf (id : U) : DbSessionEvent A C U S → Prop
  | .spawn call => call.OnSession id
  | .step _ _ => True
  | .env (.destroySession _) => False
  | .env (.cleanupExpired _) => False
  | .env _ => True

def storedRoles (id : U) (w : DbSessionState A C U) : Option (Finset String) :=
  (w.store.rows.get? id).map StoredRow.activeRoles

end Calls

section Definitions
variable {A C U S P E : Type} [AssignmentStore A S P E] [ConstraintStore C E] [Subject S] [SubjectOfId S] [DecidableEq U]
variable (newest : List StoredRow → Option StoredRow)

/-- At this event call `i` returns `Ok`. -/
def ReturnsOk (i : Nat) (p : DbSessionPool A C U S) (e : DbSessionEvent A C U S) : Prop :=
  ∃ input reply, e = .step i input ∧ (dbSessionMachine newest).out p e = some (.ok reply)

/-- In the run call `i` has returned `Ok`. -/
def HasReturnedOk (p₀ : DbSessionPool A C U S) (es : List (DbSessionEvent A C U S)) (i : Nat) : Prop :=
  (dbSessionMachine newest).Occurs (ReturnsOk newest i) p₀ es

/-- **A sequential order of the calls that returned `Ok`**, each once, whose execution one after the other gives the
roles stored after the run. -/
structure SerialOrder (id : U) (p₀ : DbSessionPool A C U S) (es : List (DbSessionEvent A C U S))
    (order : List (Nat × DbSessionCall U S)) : Prop where
  once : (order.map Prod.fst).Nodup
  calls : ∀ i call, (i, call) ∈ order → (spawned es)[i]? = some call
  returned : ∀ i, i ∈ order.map Prod.fst ↔ HasReturnedOk newest p₀ es i
  roles : storedRoles id ((dbSessionMachine newest).run p₀ es).shared =
    (storedRoles id p₀.shared).map (fun roles => order.foldl (fun roles c => c.2.execute roles) roles)

/-- **A role removed reappears only through an activation of it**, returned `Ok` since. -/
def ReappearsOnlyActivated (id : U) (p₀ : DbSessionPool A C U S) (es : List (DbSessionEvent A C U S)) : Prop :=
  ∀ k n e i roleName, es[k]? = some e → ReturnsOk newest i ((dbSessionMachine newest).run p₀ (es.take k)) e →
    (spawned es)[i]? = some (.deactivateLoad id roleName) → k < n → n ≤ es.length →
    (∃ roles, storedRoles id ((dbSessionMachine newest).run p₀ (es.take n)).shared = some roles ∧ roleName ∈ roles) →
    ∃ j e' i', k < j ∧ j < n ∧ es[j]? = some e' ∧ ReturnsOk newest i' ((dbSessionMachine newest).run p₀ (es.take j)) e' ∧
      (spawned es)[i']? = some (.activateLoad id roleName)

/-- The run's role changes of the session are serializable. -/
def RoleChangesSerializable (id : U) (p₀ : DbSessionPool A C U S) (es : List (DbSessionEvent A C U S)) : Prop :=
  (∃ order, SerialOrder newest id p₀ es order) ∧ ReappearsOnlyActivated newest id p₀ es

/-- Every call is a role change of the session, at the place it has got to. -/
def AllOnSession (id : U) (es : List (DbSessionEvent A C U S)) (p : DbSessionPool A C U S) : Prop :=
  PoolInv (fun _ => True) (fun i _ call => ∃ start, (spawned es)[i]? = some start ∧ start.OnSession id ∧
    call.Continues start) p

end Definitions

/-! ## One step -/

section Effect
variable {A C U S E : Type} [Subject S] [DecidableEq U] {id : U}

theorem insert_eq_of_erase_eq {roles loaded : Finset String} {r : String} (h : roles.erase r = loaded.erase r) :
    insert r loaded = insert r roles := by
  ext x
  have hx := Finset.ext_iff.1 h x
  simp only [Finset.mem_erase, Finset.mem_insert] at hx ⊢
  tauto

theorem storedRoles_withRows {w : DbSessionState A C U} {stored : StoredRow} (hstored : w.store.rows.get? id = some stored)
    (activeRoles : Finset String) :
    storedRoles id (w.withRows (w.store.rows.insert id { stored with activeRoles })) =
      (storedRoles id w).map (fun _ => activeRoles) := by
  unfold storedRoles DbSessionState.withRows
  rw [HashMap.get?_insert_self, hstored]
  rfl

/-- **One step of a role change**: it answers no `Ok` and leaves the roles alone, or it returns and does to the roles what
it does alone. -/
theorem storedRoles_effect {w : DbSessionState A C U} {call start : DbSessionCall U S} {result : DbStepResult A C U S E}
    (h : DbStepEffect w call result) (hcontinues : call.Continues start) (hon : start.OnSession id)
    (hcurrent : call.EditsCurrent w) :
    ((∀ reply, result.2.2 ≠ some (.ok reply)) ∧ storedRoles id result.1 = storedRoles id w) ∨
    (∃ reply, result.2.2 = some (.ok reply)) ∧ call ≠ .returned ∧ result.2.1 = .returned ∧
      storedRoles id result.1 = (storedRoles id w).map (fun roles => start.execute roles) := by
  cases h with
  | quiet call' answer hok => exact Or.inl ⟨hok, rfl⟩
  | found sessionId roleName stored hload hstored hrole =>
    subst hload
    obtain rfl := hcontinues
    obtain rfl : sessionId = id := hon
    refine Or.inr ⟨⟨.unit, rfl⟩, nofun, rfl, ?_⟩
    unfold storedRoles
    rw [hstored]
    exact congrArg some (Finset.insert_eq_of_mem hrole).symm
  | saved subject row hsave =>
    subst hsave
    exact hcontinues.elim
  | updated row roleName activeRoles stored hupdate hreachable hstored =>
    rcases hupdate with ⟨rfl, rfl⟩ | ⟨rfl, rfl⟩
    · obtain rfl := hcontinues
      obtain rfl : row.id = id := hon
      refine Or.inr ⟨⟨.unit, rfl⟩, nofun, rfl, ?_⟩
      rw [storedRoles_withRows hstored, insert_eq_of_erase_eq (hcurrent hreachable stored hstored)]
      unfold storedRoles
      rw [hstored]
      rfl
    · obtain rfl := hcontinues
      obtain rfl : row.id = id := hon
      refine Or.inr ⟨⟨.unit, rfl⟩, nofun, rfl, ?_⟩
      rw [storedRoles_withRows hstored, ← hcurrent hreachable stored hstored]
      unfold storedRoles
      rw [hstored]
      rfl
  | bumped subject next hbump =>
    subst hbump
    exact hcontinues.elim

end Effect

/-! ## One event -/

section Step
variable {A C U S P E : Type} [AssignmentStore A S P E] [ConstraintStore C E] [Subject S] [SubjectOfId S] [DecidableEq U]
variable {newest : List StoredRow → Option StoredRow} {id : U}

/-- **A step goes on with the role change it is of.** -/
theorem continues_next (newest : List StoredRow → Option StoredRow) (input : StepInput U) (w : DbSessionState A C U)
    {call start : DbSessionCall U S} (h : call.Continues start) : (call.next newest input w).2.1.Continues start := by
  cases call with
  | createRoles subject requested ttl => exact h.elim
  | createConstraints subject active ttl => exact h.elim
  | createSave subject row => exact h.elim
  | activateLoad sessionId roleName =>
    unfold DbSessionCall.next activateLoadStep
    dsimp only
    split
    · trivial
    · trivial
    · rename_i row hload
      obtain ⟨stored, -, rfl⟩ := loadedRow_eq_some (loadSession_eq_ok hload).symm
      split
      · trivial
      · split
        · trivial
        · split
          · trivial
          · exact h
  | activateRoles row subject roleName =>
    unfold DbSessionCall.next activateRolesDbStep
    dsimp only
    split
    · trivial
    · split
      · split <;> exact h
      · trivial
  | activateConstraints row roleName =>
    unfold DbSessionCall.next activateConstraintsDbStep
    dsimp only
    split
    · split
      · trivial
      · exact h
    · exact h
  | activateUpdate row roleName =>
    unfold DbSessionCall.next activateUpdateStep commit
    dsimp only
    split <;> trivial
  | deactivateLoad sessionId roleName =>
    unfold DbSessionCall.next deactivateLoadStep
    dsimp only
    split
    · trivial
    · trivial
    · rename_i row hload
      obtain ⟨stored, -, rfl⟩ := loadedRow_eq_some (loadSession_eq_ok hload).symm
      split
      · trivial
      · exact h
  | deactivateUpdate row roleName =>
    unfold DbSessionCall.next deactivateUpdateStep commit
    dsimp only
    split <;> trivial
  | bumpRead subject => exact h.elim
  | bumpWrite subject next => exact h.elim
  | returned => trivial

variable {p : DbSessionPool A C U S} {es : List (DbSessionEvent A C U S)}

theorem allOnSession_step (e : DbSessionEvent A C U S) (h : AllOnSession id es p)
    (hlength : p.threads.length = (spawned es).length) (he : RoleChangesOf id e) :
    AllOnSession id (es ++ [e]) ((dbSessionMachine newest).step p e) := by
  have hkeep : ∀ (i : Nat) (call : DbSessionCall U S), (∃ start, (spawned es)[i]? = some start ∧ start.OnSession id ∧
      call.Continues start) → ∃ start, (spawned (es ++ [e]))[i]? = some start ∧ start.OnSession id ∧
        call.Continues start := by
    rintro i call ⟨start, hstart, hrest⟩
    exact ⟨start, getElem?_spawned_append hstart [e], hrest⟩
  refine PoolInv.step h e ?_ ?_ ?_ ?_
  · rintro call rfl
    refine ⟨trivial, ⟨call, ?_, he, ?_⟩, hkeep⟩
    · rw [spawned_append, hlength]
      simp [spawned]
    · cases call <;> first | exact he.elim | rfl
  · rintro i input call rfl _ hcall
    refine ⟨trivial, ?_, fun j call' _ _ hcall' => hkeep j call' hcall'⟩
    obtain ⟨start, hstart, hon, hcontinues⟩ := hkeep i call hcall
    exact ⟨start, hstart, hon, continues_next newest input p.shared hcontinues⟩
  · rintro i input rfl _
    exact ⟨trivial, hkeep⟩
  · rintro op rfl
    exact ⟨trivial, fun j call' _ hcall' => hkeep j call' hcall'⟩

theorem ReturnsOk.unique {i j : Nat} {e : DbSessionEvent A C U S} (hi : ReturnsOk newest i p e)
    (hj : ReturnsOk newest j p e) : i = j := by
  obtain ⟨input, reply, rfl, -⟩ := hi
  obtain ⟨input', reply', he, -⟩ := hj
  exact (PoolEvent.step.inj he).1

/-- **One event**, likewise. -/
theorem storedRoles_step (newest : List StoredRow → Option StoredRow) (e : DbSessionEvent A C U S)
    (h : AllOnSession id es p) (he : RoleChangesOf id e) (hcurrent : WritesCurrent p e) :
    ((∀ i, ¬ ReturnsOk newest i p e) ∧
      storedRoles id ((dbSessionMachine newest).step p e).shared = storedRoles id p.shared) ∨
    ∃ i start, ReturnsOk newest i p e ∧ (spawned es)[i]? = some start ∧ start.OnSession id ∧
      p.threads[i]? ≠ some .returned ∧ ((dbSessionMachine newest).step p e).threads[i]? = some .returned ∧
      storedRoles id ((dbSessionMachine newest).step p e).shared =
        (storedRoles id p.shared).map (fun roles => start.execute roles) := by
  cases e with
  | spawn call =>
    refine Or.inl ⟨?_, rfl⟩
    rintro i ⟨input, reply, hstep, -⟩
    cases hstep
  | env op =>
    refine Or.inl ⟨?_, ?_⟩
    · rintro i ⟨input, reply, hstep, -⟩
      cases hstep
    · cases op <;> first | exact he.elim | rfl
  | step i input =>
    cases hcall : p.threads[i]? with
    | none =>
      obtain ⟨hstep, hout⟩ := (dbSessionProgram newest).machine_step_none hcall input
      refine Or.inl ⟨?_, congrArg (fun q => storedRoles id q.shared) hstep⟩
      rintro j ⟨input', reply, hevent, hok⟩
      cases hout.symm.trans hok
    | some call =>
      obtain ⟨hstep, hout⟩ := (dbSessionProgram newest).machine_step hcall input
      obtain ⟨start, hstart, hon, hcontinues⟩ := h.2 i call hcall
      have hshared : ((dbSessionMachine newest).step p (.step i input)).shared = (call.next newest input p.shared).1 :=
        congrArg Pool.shared hstep
      rw [hshared]
      rcases storedRoles_effect (db_next_effect newest input p.shared call) hcontinues hon (hcurrent call hcall) with
        ⟨hnot, hroles⟩ | ⟨⟨reply, hreply⟩, hrunning, hreturned, hroles⟩
      · refine Or.inl ⟨?_, hroles⟩
        rintro j ⟨input', reply, hevent, hok⟩
        exact hnot reply (hout.symm.trans hok)
      · refine Or.inr ⟨i, start, ⟨input, reply, rfl, hout.trans hreply⟩, hstart, hon, ?_, ?_, hroles⟩
        · exact fun h => hrunning (Option.some.inj (hcall.symm.trans h))
        · rw [← hreturned]
          exact (dbSessionProgram newest).getElem?_step_self hcall input

end Step

/-! ## Runs -/

section Runs
variable {A C U S P E : Type} [AssignmentStore A S P E] [ConstraintStore C E] [Subject S] [SubjectOfId S] [DecidableEq U]
variable {newest : List StoredRow → Option StoredRow} {id : U} {p₀ : DbSessionPool A C U S}
variable {es : List (DbSessionEvent A C U S)} {order : List (Nat × DbSessionCall U S)}

theorem hasReturnedOk_append (e : DbSessionEvent A C U S) (i : Nat) : HasReturnedOk newest p₀ (es ++ [e]) i ↔
    HasReturnedOk newest p₀ es i ∨ ReturnsOk newest i ((dbSessionMachine newest).run p₀ es) e :=
  (dbSessionMachine newest).occurs_append _ p₀ es e

theorem SerialOrder.quiet (h : SerialOrder newest id p₀ es order) {e : DbSessionEvent A C U S}
    (hnot : ∀ i, ¬ ReturnsOk newest i ((dbSessionMachine newest).run p₀ es) e)
    (hroles : storedRoles id ((dbSessionMachine newest).step ((dbSessionMachine newest).run p₀ es) e).shared =
      storedRoles id ((dbSessionMachine newest).run p₀ es).shared) :
    SerialOrder newest id p₀ (es ++ [e]) order where
  once := h.once
  calls i call hi := getElem?_spawned_append (h.calls i call hi) [e]
  returned i := by
    rw [h.returned i, hasReturnedOk_append]
    exact ⟨Or.inl, fun hi => hi.resolve_right (hnot i)⟩
  roles := by
    rw [Machine.run_append]
    exact hroles.trans h.roles

/-- **A call that returns `Ok` comes next in the order.** -/
theorem SerialOrder.returns (h : SerialOrder newest id p₀ es order) {e : DbSessionEvent A C U S} {i : Nat}
    {start : DbSessionCall U S} (hok : ReturnsOk newest i ((dbSessionMachine newest).run p₀ es) e)
    (hstart : (spawned es)[i]? = some start) (hfirst : i ∉ order.map Prod.fst)
    (hroles : storedRoles id ((dbSessionMachine newest).step ((dbSessionMachine newest).run p₀ es) e).shared =
      (storedRoles id ((dbSessionMachine newest).run p₀ es).shared).map (fun roles => start.execute roles)) :
    SerialOrder newest id p₀ (es ++ [e]) (order ++ [(i, start)]) where
  once := by
    rw [List.map_append, List.nodup_append]
    refine ⟨h.once, List.nodup_singleton _, fun a ha b hb => ?_⟩
    obtain rfl := List.mem_singleton.1 hb
    exact fun hab => hfirst (hab ▸ ha)
  calls j call hj := by
    rcases List.mem_append.1 hj with hj | hj
    · exact getElem?_spawned_append (h.calls j call hj) [e]
    · obtain ⟨rfl, rfl⟩ := Prod.mk.inj (List.mem_singleton.1 hj)
      exact getElem?_spawned_append hstart [e]
  returned j := by
    rw [List.map_append, List.mem_append, h.returned j, hasReturnedOk_append]
    refine or_congr_right ⟨fun hj => ?_, fun hj => ?_⟩
    · obtain rfl := List.mem_singleton.1 hj
      exact hok
    · exact List.mem_singleton.2 (hj.unique hok)
  roles := by
    rw [Machine.run_append]
    refine hroles.trans ?_
    rw [h.roles, Option.map_map]
    simp only [Function.comp_def, List.foldl_append, List.foldl_cons, List.foldl_nil]

/-- What holds after every event: the calls are role changes of the session, and those that have returned `Ok` have an
order. -/
def Serial (newest : List StoredRow → Option StoredRow) (id : U) (p₀ : DbSessionPool A C U S)
    (es : List (DbSessionEvent A C U S)) (p : DbSessionPool A C U S) : Prop :=
  AllOnSession id es p ∧ ∃ order, SerialOrder newest id p₀ es order ∧
    ∀ i ∈ order.map Prod.fst, p.threads[i]? = some .returned

theorem returned_step (e : DbSessionEvent A C U S) {p : DbSessionPool A C U S} {i : Nat}
    (h : p.threads[i]? = some .returned) : ((dbSessionMachine newest).step p e).threads[i]? = some .returned := by
  by_cases hown : ∃ input, e = .step i input
  · obtain ⟨input, rfl⟩ := hown
    exact (dbSessionProgram newest).getElem?_step_self h input
  · exact (dbSessionProgram newest).getElem?_step_of_ne h (fun input he => hown ⟨input, he⟩)

theorem serial_step {w : DbSessionState A C U} (e : DbSessionEvent A C U S)
    (h : Serial newest id ⟨w, []⟩ es ((dbSessionMachine newest).run ⟨w, []⟩ es)) (he : RoleChangesOf id e)
    (hcurrent : WritesCurrent ((dbSessionMachine newest).run ⟨w, []⟩ es) e) :
    Serial newest id ⟨w, []⟩ (es ++ [e])
      ((dbSessionMachine newest).step ((dbSessionMachine newest).run ⟨w, []⟩ es) e) := by
  obtain ⟨hall, order, horder, hreturned⟩ := h
  refine ⟨allOnSession_step e hall ((dbSessionProgram newest).length_threads_run w es) he, ?_⟩
  rcases storedRoles_step newest e hall he hcurrent with
    ⟨hnot, hroles⟩ | ⟨i, start, hok, hstart, -, hrunning, hdone, hroles⟩
  · exact ⟨order, horder.quiet hnot hroles, fun i hi => returned_step e (hreturned i hi)⟩
  · refine ⟨order ++ [(i, start)], horder.returns hok hstart (fun hi => hrunning (hreturned i hi)) hroles, ?_⟩
    intro j hj
    rw [List.map_append, List.mem_append] at hj
    rcases hj with hj | hj
    · exact returned_step e (hreturned j hj)
    · obtain rfl := List.mem_singleton.1 hj
      exact hdone

/-- **The order exists at every moment of the run.** -/
theorem serial_run {w : DbSessionState A C U} (hes : ∀ e ∈ es, RoleChangesOf id e)
    (hcurrent : (dbSessionMachine newest).Along WritesCurrent ⟨w, []⟩ es) :
    Serial newest id ⟨w, []⟩ es ((dbSessionMachine newest).run ⟨w, []⟩ es) := by
  refine (dbSessionMachine newest).run_history (fun p e => WritesCurrent p e ∧ RoleChangesOf id e)
    (Serial newest id ⟨w, []⟩) ⟨w, []⟩ ?_ (fun es e h he => serial_step e h he.2 he.1) es
    ((dbSessionMachine newest).along_and _ _ _ _ hcurrent hes)
  refine ⟨PoolInv.empty _ trivial, [], ⟨List.nodup_nil, nofun, fun i => ⟨nofun, ?_⟩, ?_⟩, nofun⟩
  · rintro ⟨j, e, hj, -⟩
    cases hj
  · exact (congrFun Option.map_id _).symm

theorem storedRoles_succ {w : DbSessionState A C U} (hes : ∀ e ∈ es, RoleChangesOf id e)
    (hcurrent : (dbSessionMachine newest).Along WritesCurrent ⟨w, []⟩ es) {m : Nat} {e : DbSessionEvent A C U S}
    (he : es[m]? = some e) :
    ((∀ i, ¬ ReturnsOk newest i ((dbSessionMachine newest).run ⟨w, []⟩ (es.take m)) e) ∧
      storedRoles id ((dbSessionMachine newest).run ⟨w, []⟩ (es.take (m + 1))).shared =
        storedRoles id ((dbSessionMachine newest).run ⟨w, []⟩ (es.take m)).shared) ∨
    ∃ i start, ReturnsOk newest i ((dbSessionMachine newest).run ⟨w, []⟩ (es.take m)) e ∧
      (spawned es)[i]? = some start ∧ start.OnSession id ∧
      storedRoles id ((dbSessionMachine newest).run ⟨w, []⟩ (es.take (m + 1))).shared =
        (storedRoles id ((dbSessionMachine newest).run ⟨w, []⟩ (es.take m)).shared).map
          (fun roles => start.execute roles) := by
  have hsplit := (dbSessionMachine newest).along_append WritesCurrent ⟨w, []⟩ (es.take m) (es.drop m)
  rw [List.take_append_drop] at hsplit
  have hserial := serial_run (fun f hf => hes f (List.mem_of_mem_take hf)) (hsplit.1 hcurrent).1
  rw [(dbSessionMachine newest).run_take_succ _ he]
  rcases storedRoles_step newest e hserial.1 (hes e (List.mem_of_getElem? he))
    ((dbSessionMachine newest).along_getElem? _ _ es hcurrent m e he) with hquiet | ⟨i, start, hok, hstart, hon, -, -, hroles⟩
  · exact Or.inl hquiet
  · have hall := getElem?_spawned_append hstart (es.drop m)
    rw [List.take_append_drop] at hall
    exact Or.inr ⟨i, start, hok, hall, hon, hroles⟩

/-- **A role appears only through an activation of it.** -/
theorem activated_between {w : DbSessionState A C U} (hes : ∀ e ∈ es, RoleChangesOf id e)
    (hcurrent : (dbSessionMachine newest).Along WritesCurrent ⟨w, []⟩ es) {roleName : String} {m n : Nat} (hmn : m ≤ n)
    (hbefore : ∀ roles, storedRoles id ((dbSessionMachine newest).run ⟨w, []⟩ (es.take m)).shared = some roles →
      roleName ∉ roles) :
    n ≤ es.length → ∀ roles, storedRoles id ((dbSessionMachine newest).run ⟨w, []⟩ (es.take n)).shared = some roles →
      roleName ∈ roles → ∃ j e' i', m ≤ j ∧ j < n ∧ es[j]? = some e' ∧
        ReturnsOk newest i' ((dbSessionMachine newest).run ⟨w, []⟩ (es.take j)) e' ∧
        (spawned es)[i']? = some (.activateLoad id roleName) := by
  induction n, hmn using Nat.le_induction with
  | base => exact fun _ roles hroles hmem => absurd hmem (hbefore roles hroles)
  | succ n hmn ih =>
    intro hn roles hroles hmem
    have he : es[n]? = some es[n] := List.getElem?_eq_getElem hn
    have hearlier : ∀ roles', storedRoles id ((dbSessionMachine newest).run ⟨w, []⟩ (es.take n)).shared = some roles' →
        roleName ∈ roles' → ∃ j e' i', m ≤ j ∧ j < n + 1 ∧ es[j]? = some e' ∧
          ReturnsOk newest i' ((dbSessionMachine newest).run ⟨w, []⟩ (es.take j)) e' ∧
          (spawned es)[i']? = some (.activateLoad id roleName) := by
      intro roles' hroles' hmem'
      obtain ⟨j, e', i', hmj, hjn, hrest⟩ := ih (Nat.le_of_lt hn) roles' hroles' hmem'
      exact ⟨j, e', i', hmj, Nat.lt_succ_of_lt hjn, hrest⟩
    rcases storedRoles_succ hes hcurrent he with ⟨-, hsame⟩ | ⟨i, start, hok, hstart, hon, hnext⟩
    · exact hearlier roles (hsame.symm.trans hroles) hmem
    · obtain ⟨roles', hroles', rfl⟩ := Option.map_eq_some_iff.1 (hnext.symm.trans hroles)
      cases start with
      | activateLoad sessionId r =>
        obtain rfl : sessionId = id := hon
        rcases Finset.mem_insert.1 hmem with rfl | hmem'
        · exact ⟨n, es[n], i, hmn, Nat.lt_succ_self n, he, hok, hstart⟩
        · exact hearlier roles' hroles' hmem'
      | deactivateLoad sessionId r => exact hearlier roles' hroles' (Finset.mem_of_mem_erase hmem)
      | _ => exact hon.elim

end Runs

section Main
variable {A C U S P E : Type} [AssignmentStore A S P E] [ConstraintStore C E] [Subject S] [SubjectOfId S] [DecidableEq U]

/-- **Role changes over current rows are serializable**: from any state of the table, in every run of role changes of the
session whose writes are all over the row they were made from. -/
theorem roleChanges_serializable (newest : List StoredRow → Option StoredRow) (w : DbSessionState A C U) (id : U)
    (es : List (DbSessionEvent A C U S)) (hes : ∀ e ∈ es, RoleChangesOf id e)
    (hcurrent : (dbSessionMachine newest).Along WritesCurrent ⟨w, []⟩ es) :
    RoleChangesSerializable newest id ⟨w, []⟩ es := by
  constructor
  · obtain ⟨-, order, horder, -⟩ := serial_run hes hcurrent
    exact ⟨order, horder⟩
  · rintro k n e i roleName he hok hcall hkn hn ⟨roles, hroles, hmem⟩
    have hremoved : ∀ roles', storedRoles id ((dbSessionMachine newest).run ⟨w, []⟩ (es.take (k + 1))).shared =
        some roles' → roleName ∉ roles' := by
      intro roles' hroles'
      rcases storedRoles_succ hes hcurrent he with ⟨hnot, -⟩ | ⟨i', start, hok', hstart, -, hnext⟩
      · exact absurd hok (hnot i)
      · obtain rfl := hok'.unique hok
        obtain rfl := Option.some.inj (hcall.symm.trans hstart)
        obtain ⟨roles₀, -, rfl⟩ := Option.map_eq_some_iff.1 (hnext.symm.trans hroles')
        exact Finset.notMem_erase roleName roles₀
    exact activated_between hes hcurrent hkn hremoved hn roles hroles hmem

end Main

/-! ## Two runs: a deactivation within an activation, and before it -/

def staffStore : InMemoryAssignmentStore String TestPerm :=
  (InMemoryAssignmentStore.new.assignRole "alice" "auditor").assignRole "alice" "operator"

/-- One session with the role `auditor`. -/
def staffState : DbSessionState (InMemoryAssignmentStore String TestPerm) InMemoryConstraintStore Nat :=
  ⟨⟨HashMap.empty.insert 1 ⟨"alice", {"auditor"}, 0, 60, 0⟩, true, .byName⟩, staffStore, none⟩

/-- The activation has loaded the row when the deactivation loads and writes it. -/
def overlappingRun : List (DbSessionEvent (InMemoryAssignmentStore String TestPerm) InMemoryConstraintStore Nat String) :=
  [.spawn (.activateLoad 1 "operator"), .spawn (.deactivateLoad 1 "auditor"), .step 0 ⟨0, 0⟩, .step 0 ⟨0, 0⟩,
    .step 1 ⟨0, 0⟩, .step 1 ⟨0, 0⟩, .step 0 ⟨0, 0⟩]

/-- The deactivation has returned when the activation loads the row. -/
def consecutiveRun : List (DbSessionEvent (InMemoryAssignmentStore String TestPerm) InMemoryConstraintStore Nat String) :=
  [.spawn (.activateLoad 1 "operator"), .spawn (.deactivateLoad 1 "auditor"), .step 1 ⟨0, 0⟩, .step 1 ⟨0, 0⟩,
    .step 0 ⟨0, 0⟩, .step 0 ⟨0, 0⟩, .step 0 ⟨0, 0⟩]

theorem overlappingRun_roles : storedRoles 1 ((dbSessionMachine latest).run ⟨staffState, []⟩ overlappingRun).shared =
    some {"auditor", "operator"} := by decide +kernel

theorem not_serializable_overlapping :
    ¬ RoleChangesSerializable latest 1 ⟨staffState, []⟩ overlappingRun := by
  rintro ⟨-, h⟩
  obtain ⟨j, e', i', hj, hj', -, -, hcall⟩ := h 5 7 _ 1 "auditor" rfl ⟨⟨0, 0⟩, .unit, rfl, rfl⟩ rfl (by decide)
    (by decide) ⟨_, overlappingRun_roles, by decide⟩
  -- the only activation of the run is of another role
  have hspawned : spawned overlappingRun = [.activateLoad 1 "operator", .deactivateLoad 1 "auditor"] := rfl
  rw [hspawned] at hcall
  match i', hcall with
  | 0, hcall => exact absurd (DbSessionCall.activateLoad.inj (Option.some.inj hcall)).2 (by decide)
  | 1, hcall => cases hcall
  | _ + 2, hcall => cases hcall

theorem roleChanges_serializable_consecutive :
    RoleChangesSerializable latest 1 ⟨staffState, []⟩ consecutiveRun := by
  refine roleChanges_serializable _ staffState 1 consecutiveRun ?_ (by decide +kernel)
  intro e he
  simp only [consecutiveRun, List.mem_cons, List.not_mem_nil, or_false] at he
  rcases he with rfl | rfl | rfl | rfl | rfl | rfl | rfl <;> first | rfl | trivial

end Rbac
end Kirino
