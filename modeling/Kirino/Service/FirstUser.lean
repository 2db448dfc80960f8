import Kirino.Service.Login
/-!
# FirstUser — the election of the first administrator (`service/login/mod.rs`)

The registration that takes the latch counts the users, creates its own and assigns the first role, three statements
after the swap.  No other registration ever assigns that role, so there is at most one administrator
(`Electing.atMostOne`); there is one once that registration gets through its statements and no other user is created
before it has counted (`ElectionSafe`).
-/
namespace Kirino
namespace Service

open Auth (JwtCrate MemoryRevocationBackend)
open Lib (Machine Pool PoolEvent)
open Rbac (InMemoryAssignmentStore)

/-! ## The calls of a registration -/

section Calls
variable {U : Type}

/-- The call has passed the latch. -/
def ServiceCall.PastLatch : ServiceCall U → Prop
  | .registerCount _ => True
  | .registerCreate _ _ => True
  | .registerAssign _ _ => True
  | _ => False

/-- The call may assign the first role: it has taken the latch, and counted no user if it has counted. -/
def ServiceCall.Elected : ServiceCall U → Prop
  | .registerCount _ => True
  | .registerCreate _ isFirst => isFirst = true
  | .registerAssign _ isFirst => isFirst = true
  | _ => False

/-- The call is one of a registration. -/
def ServiceCall.Registers : ServiceCall U → Prop
  | .registerAdmit _ _ => True
  | .registerFind _ _ => True
  | .registerLatch _ _ => True
  | .registerCount _ => True
  | .registerCreate _ _ => True
  | .registerAssign _ _ => True
  | .returned => True
  | _ => False

theorem ServiceCall.Elected.pastLatch {call : ServiceCall U} (h : call.Elected) : call.PastLatch := by
  cases call <;> first | exact h.elim | trivial

/-- The calls that start are registrations. -/
def StartsRegister : ServiceEvent U → Prop
  | .spawn (.registerAdmit _ _) => True
  | .spawn _ => False
  | _ => True

instance : ∀ e : ServiceEvent U, Decidable (StartsRegister e)
  | .spawn (.registerAdmit _ _) => isTrue trivial
  | .spawn (.registerFind _ _) => isFalse not_false
  | .spawn (.registerLatch _ _) => isFalse not_false
  | .spawn (.registerCount _) => isFalse not_false
  | .spawn (.registerCreate _ _) => isFalse not_false
  | .spawn (.registerAssign _ _) => isFalse not_false
  | .spawn (.loginAdmit _ _) => isFalse not_false
  | .spawn (.loginFind _ _) => isFalse not_false
  | .spawn (.loginVerify _ _) => isFalse not_false
  | .spawn (.loginRoles _) => isFalse not_false
  | .spawn (.loginPermissions _ _) => isFalse not_false
  | .spawn (.loginIssue _ _ _) => isFalse not_false
  | .spawn (.changeFind _ _ _) => isFalse not_false
  | .spawn (.changeVerify _ _ _ _ _) => isFalse not_false
  | .spawn (.changeRevoke _ _ _) => isFalse not_false
  | .spawn (.changeUpdate _ _) => isFalse not_false
  | .spawn .returned => isFalse not_false
  | .step _ _ => isTrue trivial
  | .env _ => isTrue trivial

end Calls

section Definitions
variable {J : JwtCrate} {U P : Type} [UuidText U] [DecidableEq U] (svc : AuthService J)

/-- The first role is assigned to the subject of this id. -/
def RoleHeld (w : ServiceState U P) (sid : String) : Prop := svc.firstUserRole ∈ w.assignments.rolesOf sid

/-- A registered user has the first role. -/
def HoldsFirstRole (w : ServiceState U P) (id : U) : Prop :=
  (∃ user, w.users.findById id = some user) ∧ RoleHeld svc w (toText id)

/-- A service without users, roles or revocations. -/
def freshService : ServicePool U P := ⟨⟨UserTable.new, InMemoryAssignmentStore.new, false, MemoryRevocationBackend.new⟩, []⟩

/-- In the run a registration has returned `Ok`. -/
def HasRegistered (p₀ : ServicePool U P) (es : List (ServiceEvent U)) : Prop :=
  svc.machine.Occurs (fun p e => ∃ user, svc.machine.out p e = some (.ok (.registered user))) p₀ es

/-- **The election holds** after the run: at most one registered user has the first role, and once a registration has
returned `Ok` and none is in flight, exactly one has. -/
def ElectionHolds (p₀ : ServicePool U P) (es : List (ServiceEvent U)) : Prop :=
  (∀ id id', HoldsFirstRole svc (svc.machine.run p₀ es).shared id →
    HoldsFirstRole svc (svc.machine.run p₀ es).shared id' → id = id') ∧
  (HasRegistered svc p₀ es → (∀ call ∈ (svc.machine.run p₀ es).threads, call = .returned) →
    ∃ id, HoldsFirstRole svc (svc.machine.run p₀ es).shared id ∧
      ∀ id', HoldsFirstRole svc (svc.machine.run p₀ es).shared id' → id' = id)

/-- The step of an elected call is not refused, and its user can be created; and a user is not created while a call
counts. -/
def ElectionSafe (p : ServicePool U P) : ServiceEvent U → Prop
  | .step i input => ∀ call, p.threads[i]? = some call →
    (call.Elected → input.refused = none ∧
      ∀ user isFirst, call = .registerCreate user isFirst → ∃ users, p.shared.users.createUser user = .ok users) ∧
    ∀ user isFirst users, call = .registerCreate user isFirst → input.refused = none →
      p.shared.users.createUser user = .ok users → ∀ (j : Nat) user', p.threads[j]? ≠ some (.registerCount user')
  | _ => True

end Definitions

/-! ## One step of a registration -/

section Effect
variable {J : JwtCrate} {U P : Type} [UuidText U] [DecidableEq U]

/-- What a step of a registration does: nothing, before the latch or when it returns an error; it takes the latch; it
passes the latch taken; it counts; it creates its user; or it assigns the role. -/
inductive RegisterEffect (svc : AuthService J) (input : ServiceInput U) (w : ServiceState U P) (call : ServiceCall U) :
    ServiceStep U P → Prop where
  | before (call' : ServiceCall U) (hregisters : call'.Registers) (hpast : ¬ call'.PastLatch)
      (hcall : ¬ call.PastLatch) : RegisterEffect svc input w call (w, call', none)
  | fails (e : ServiceError) (hcall : ∀ user isFirst, call = .registerCreate user isFirst →
      input.refused = none → ∀ users, w.users.createUser user ≠ .ok users)
      (hrefused : call.PastLatch → (∀ user isFirst, call ≠ .registerCreate user isFirst) → input.refused ≠ none) :
    RegisterEffect svc input w call (w, .returned, some (.error e))
  | returned (hcall : call = .returned) : RegisterEffect svc input w call (w, .returned, none)
  | takes (user : UserRecord U) (hcall : ¬ call.PastLatch) (hfree : w.hasFirstUser = false) :
    RegisterEffect svc input w call ({ w with hasFirstUser := true }, .registerCount user, none)
  | passes (user : UserRecord U) (hcall : ¬ call.PastLatch)
      (htaken : svc.autoAdminFirstUser = true → w.hasFirstUser = true) :
    RegisterEffect svc input w call (w, .registerCreate user false, none)
  | counts (user : UserRecord U) (hcall : call = .registerCount user) :
    RegisterEffect svc input w call (w, .registerCreate user (decide (w.users.countUsers = 0)), none)
  | creates (user : UserRecord U) (isFirst : Bool) (users : UserTable U) (hcall : call = .registerCreate user isFirst)
      (hadmitted : input.refused = none) (hcreate : w.users.createUser user = .ok users) :
    RegisterEffect svc input w call ({ w with users }, .registerAssign user isFirst, none)
  | assigns (user : UserRecord U) (isFirst : Bool) (hcall : call = .registerAssign user isFirst) :
    RegisterEffect svc input w call
      ({ w with assignments := w.assignments.assignRole (toText user.id) (svc.roleName isFirst) }, .returned,
        some (.ok (.registered user)))

/-- **Every step of a registration has one of these effects.** -/
theorem register_effect (svc : AuthService J) (input : ServiceInput U) (w : ServiceState U P) {call : ServiceCall U}
    (hcall : call.Registers) : RegisterEffect svc input w call (svc.next w input call) := by
  cases call with
  | registerAdmit username password =>
    unfold AuthService.next AuthService.registerAdmitStep
    dsimp only
    split
    · exact .fails _ nofun (fun h => h.elim)
    · split
      · exact .fails _ nofun (fun h => h.elim)
      · split
        · exact .fails _ nofun (fun h => h.elim)
        · exact .before _ trivial not_false not_false
  | registerFind username password =>
    unfold AuthService.next AuthService.registerFindStep
    dsimp only
    split
    · exact .fails _ nofun (fun h => h.elim)
    · split
      · exact .fails _ nofun (fun h => h.elim)
      · exact .before _ trivial not_false not_false
  | registerLatch username password =>
    unfold AuthService.next AuthService.registerLatchStep
    dsimp only
    split
    · exact .fails _ nofun (fun h => h.elim)
    · split
      · split
        · rename_i htaken
          exact .passes _ not_false (fun _ => htaken)
        · rename_i hfree
          exact .takes _ not_false (by simpa using hfree)
      · rename_i hauto
        exact .passes _ not_false (fun h => absurd h hauto)
  | registerCount user =>
    unfold AuthService.next AuthService.registerCountStep
    dsimp only
    split
    · rename_i e he
      exact .fails _ nofun (fun _ _ => by rw [he]; exact Option.some_ne_none e)
    · exact .counts user rfl
  | registerCreate user isFirst =>
    unfold AuthService.next AuthService.registerCreateStep
    dsimp only
    split
    · rename_i e he
      refine .fails _ (fun _ _ _ hnone => ?_) (fun _ hne => absurd rfl (hne user isFirst))
      rw [he] at hnone
      cases hnone
    · rename_i hnone
      split
      · rename_i e he
        refine .fails _ (fun user' isFirst' hsame _ users hok => ?_) (fun _ hne => absurd rfl (hne user isFirst))
        obtain ⟨rfl, rfl⟩ := ServiceCall.registerCreate.inj hsame
        cases he.symm.trans hok
      · rename_i users hok
        exact .creates user isFirst users rfl hnone hok
  | registerAssign user isFirst =>
    unfold AuthService.next AuthService.registerAssignStep
    dsimp only
    split
    · rename_i e he
      exact .fails _ nofun (fun _ _ => by rw [he]; exact Option.some_ne_none e)
    · exact .assigns user isFirst rfl
  | returned => exact .returned rfl
  | _ => exact hcall.elim

end Effect

/-! ## At most one administrator -/

section Electing
variable {J : JwtCrate} {U P : Type} {svc : AuthService J} {p : ServicePool U P}

/-- What holds at every moment of registrations: the calls past the latch found it taken or took it, at most one is
elected, no subject has the first role while one is, and at most one ever has. -/
structure Electing (svc : AuthService J) (p : ServicePool U P) : Prop where
  registers : ∀ (i : Nat) call, p.threads[i]? = some call → call.Registers
  taken : ∀ (i : Nat) call, p.threads[i]? = some call → call.PastLatch → p.shared.hasFirstUser = true
  unique : ∀ (i j : Nat) call call', p.threads[i]? = some call → call.Elected → p.threads[j]? = some call' →
    call'.Elected → i = j
  unheld : ∀ (i : Nat) call, p.threads[i]? = some call → call.Elected → ∀ sid, ¬ RoleHeld svc p.shared sid
  free : p.shared.hasFirstUser = false → ∀ sid, ¬ RoleHeld svc p.shared sid
  one : ∀ sid sid', RoleHeld svc p.shared sid → RoleHeld svc p.shared sid' → sid = sid'

theorem electing_fresh : Electing svc (freshService : ServicePool U P) where
  registers _ _ h := by cases h
  taken _ _ h := by cases h
  unique _ _ _ _ h := by cases h
  unheld _ _ h := by cases h
  free _ _ h := absurd h List.not_mem_nil
  one _ _ h := absurd h List.not_mem_nil

theorem Electing.spawn (h : Electing svc p) (username password : String) :
    Electing svc { p with threads := p.threads ++ [.registerAdmit username password] } where
  registers i call hcall := by
    rcases Lib.getElem?_concat hcall with hcall | ⟨-, rfl⟩
    · exact h.registers i call hcall
    · trivial
  taken i call hcall hpast := by
    rcases Lib.getElem?_concat hcall with hcall | ⟨-, rfl⟩
    · exact h.taken i call hcall hpast
    · exact hpast.elim
  unique i j call call' hcall helected hcall' helected' := by
    rcases Lib.getElem?_concat hcall with hcall | ⟨-, rfl⟩
    · rcases Lib.getElem?_concat hcall' with hcall' | ⟨-, rfl⟩
      · exact h.unique i j call call' hcall helected hcall' helected'
      · exact helected'.elim
    · exact helected.elim
  unheld i call hcall helected := by
    rcases Lib.getElem?_concat hcall with hcall | ⟨-, rfl⟩
    · exact h.unheld i call hcall helected
    · exact helected.elim
  free := h.free
  one := h.one

/-- A step puts one call at its next place, and the state where it puts it. -/
theorem Electing.set (h : Electing svc p) {i : Nat} {w : ServiceState U P} {call : ServiceCall U}
    (hregisters : call.Registers) (hlatch : p.shared.hasFirstUser = true → w.hasFirstUser = true)
    (hpast : call.PastLatch → w.hasFirstUser = true)
    (helected : call.Elected → (∀ (j : Nat) call', j ≠ i → p.threads[j]? = some call' → ¬ call'.Elected) ∧
      ∀ sid, ¬ RoleHeld svc w sid)
    (hunheld : ∀ (j : Nat) call', j ≠ i → p.threads[j]? = some call' → call'.Elected → ∀ sid, ¬ RoleHeld svc w sid)
    (hfree : w.hasFirstUser = false → ∀ sid, ¬ RoleHeld svc w sid)
    (hone : ∀ sid sid', RoleHeld svc w sid → RoleHeld svc w sid' → sid = sid') :
    Electing svc ⟨w, p.threads.set i call⟩ where
  registers j call' hcall' := by
    rcases Lib.getElem?_set_cases hcall' with ⟨-, rfl⟩ | ⟨-, hcall'⟩
    · exact hregisters
    · exact h.registers j call' hcall'
  taken j call' hcall' hpast' := by
    rcases Lib.getElem?_set_cases hcall' with ⟨-, rfl⟩ | ⟨-, hcall'⟩
    · exact hpast hpast'
    · exact hlatch (h.taken j call' hcall' hpast')
  unique j k call' call'' hcall' helected' hcall'' helected'' := by
    rcases Lib.getElem?_set_cases hcall' with ⟨rfl, rfl⟩ | ⟨hj, hold⟩
    · rcases Lib.getElem?_set_cases hcall'' with ⟨rfl, rfl⟩ | ⟨hk, hold⟩
      · rfl
      · exact absurd helected'' ((helected helected').1 k call'' hk hold)
    · rcases Lib.getElem?_set_cases hcall'' with ⟨rfl, rfl⟩ | ⟨hk, hold'⟩
      · exact absurd helected' ((helected helected'').1 j call' hj hold)
      · exact h.unique j k call' call'' hold helected' hold' helected''
  unheld j call' hcall' helected' := by
    rcases Lib.getElem?_set_cases hcall' with ⟨-, rfl⟩ | ⟨hj, hcall'⟩
    · exact (helected helected').2
    · exact hunheld j call' hj hcall' helected'
  free := hfree
  one := hone

theorem elected_set {i : Nat} {call call' : ServiceCall U} (hcall : p.threads[i]? = some call)
    (h : ∃ (j : Nat) (c : ServiceCall U), p.threads[j]? = some c ∧ c.Elected) (hkeep : call.Elected → call'.Elected) :
    ∃ (j : Nat) (c : ServiceCall U), (p.threads.set i call')[j]? = some c ∧ c.Elected := by
  obtain ⟨j, c, hj, helected⟩ := h
  by_cases hij : i = j
  · subst hij
    obtain rfl := Option.some.inj (hcall.symm.trans hj)
    exact ⟨i, call', List.getElem?_set_self (List.getElem?_eq_some_iff.1 hj).1, hkeep helected⟩
  · exact ⟨j, c, (List.getElem?_set_ne hij).trans hj, helected⟩

theorem roleHeld_assign [UuidText U] {w : ServiceState U P} (hroles : svc.firstUserRole ≠ svc.defaultRole) {user : UserRecord U}
    {isFirst : Bool} {sid : String}
    (h : RoleHeld svc { w with assignments := w.assignments.assignRole (toText user.id) (svc.roleName isFirst) } sid) :
    RoleHeld svc w sid ∨ isFirst = true ∧ sid = toText user.id := by
  unfold RoleHeld at *
  dsimp only at h
  rw [InMemoryAssignmentStore.rolesOf_assignRole] at h
  split at h
  · rename_i hsid
    rcases List.mem_insert_iff.1 h with hrole | hold
    · cases isFirst with
      | true => exact Or.inr ⟨rfl, hsid⟩
      | false => exact absurd hrole hroles
    · exact Or.inl hold
  · exact Or.inl h

theorem roleHeld_of_assign [UuidText U] {w : ServiceState U P} {user : UserRecord U} {isFirst : Bool} {sid : String}
    (h : RoleHeld svc w sid ∨ isFirst = true ∧ sid = toText user.id) :
    RoleHeld svc { w with assignments := w.assignments.assignRole (toText user.id) (svc.roleName isFirst) } sid := by
  unfold RoleHeld at *
  dsimp only
  rw [InMemoryAssignmentStore.rolesOf_assignRole]
  rcases h with hheld | ⟨rfl, rfl⟩
  · split
    · exact List.mem_insert_of_mem hheld
    · exact hheld
  · rw [if_pos rfl]
    exact List.mem_insert_self

end Electing

section AtMostOne
variable {J : JwtCrate} {U P : Type} [UuidText U] [DecidableEq U] {svc : AuthService J} {p : ServicePool U P}

/-- **A step keeps it.** -/
theorem Electing.next (h : Electing svc p) (hauto : svc.autoAdminFirstUser = true)
    (hroles : svc.firstUserRole ≠ svc.defaultRole) {i : Nat} {call : ServiceCall U} (input : ServiceInput U)
    (hcall : p.threads[i]? = some call) :
    Electing svc ⟨(svc.next p.shared input call).1, p.threads.set i (svc.next p.shared input call).2.1⟩ := by
  have hothers : call.Elected → ∀ (j : Nat) call', j ≠ i → p.threads[j]? = some call' → ¬ call'.Elected :=
    fun he j call' hj hcall' he' => hj (h.unique j i call' call hcall' he' hcall he)
  have hsame : ∀ (j : Nat) call', j ≠ i → p.threads[j]? = some call' → call'.Elected → ∀ sid, ¬ RoleHeld svc p.shared sid :=
    fun j call' _ hcall' he => h.unheld j call' hcall' he
  have heffect := register_effect svc input p.shared (h.registers i call hcall)
  generalize svc.next p.shared input call = result at heffect
  cases heffect with
  | before call' hregisters hpast =>
    exact h.set hregisters id (fun hp => absurd hp hpast) (fun he => absurd he.pastLatch hpast) hsame h.free h.one
  | fails e => exact h.set trivial id (fun hp => hp.elim) (fun he => he.elim) hsame h.free h.one
  | returned => exact h.set trivial id (fun hp => hp.elim) (fun he => he.elim) hsame h.free h.one
  | takes user hpast hfree =>
    have hnone : ∀ (j : Nat) call', p.threads[j]? = some call' → ¬ call'.Elected := by
      intro j call' hcall' he
      have htaken := h.taken j call' hcall' he.pastLatch
      rw [hfree] at htaken
      cases htaken
    exact h.set trivial (fun _ => rfl) (fun _ => rfl) (fun _ => ⟨fun j call' _ hcall' => hnone j call' hcall', h.free hfree⟩)
      (fun j call' _ hcall' he => absurd he (hnone j call' hcall')) nofun h.one
  | passes user hpast htaken =>
    exact h.set trivial id (fun _ => htaken hauto) nofun hsame h.free h.one
  | counts user hcount =>
    subst hcount
    exact h.set trivial id (fun _ => h.taken i _ hcall trivial)
      (fun _ => ⟨hothers trivial, h.unheld i _ hcall trivial⟩) hsame h.free h.one
  | creates user isFirst users hcreate =>
    subst hcreate
    exact h.set trivial id (fun _ => h.taken i _ hcall trivial)
      (fun he => ⟨hothers he, h.unheld i _ hcall he⟩) hsame h.free h.one
  | assigns user isFirst hassign =>
    subst hassign
    have htaken := h.taken i _ hcall trivial
    refine h.set trivial id (fun hp => hp.elim) (fun he => he.elim) ?_ ?_ ?_
    · intro j call' hj hcall' he sid hheld
      rcases roleHeld_assign hroles hheld with hheld | ⟨hfirst, -⟩
      · exact h.unheld j call' hcall' he sid hheld
      · exact hothers hfirst j call' hj hcall' he
    · intro hfree
      cases htaken.symm.trans hfree
    · intro sid sid' hheld hheld'
      rcases roleHeld_assign hroles hheld with hheld | ⟨hfirst, rfl⟩
      · rcases roleHeld_assign hroles hheld' with hheld' | ⟨hfirst, -⟩
        · exact h.one sid sid' hheld hheld'
        · exact absurd hheld (h.unheld i _ hcall hfirst sid)
      · rcases roleHeld_assign hroles hheld' with hheld' | ⟨-, rfl⟩
        · exact absurd hheld' (h.unheld i _ hcall hfirst sid')
        · rfl

/-- **Every event keeps it.** -/
theorem Electing.step (h : Electing svc p) (hauto : svc.autoAdminFirstUser = true)
    (hroles : svc.firstUserRole ≠ svc.defaultRole) {e : ServiceEvent U} (he : StartsRegister e) :
    Electing svc (svc.machine.step p e) := by
  cases e with
  | spawn call =>
    cases call with
    | registerAdmit username password => exact h.spawn username password
    | _ => exact he.elim
  | step i input =>
    cases hcall : p.threads[i]? with
    | none =>
      rw [(svc.machine_step_none hcall input).1]
      exact h
    | some call =>
      rw [(svc.machine_step hcall input).1]
      exact h.next hauto hroles input hcall
  | env e => exact nomatch e

/-- **There is at most one administrator**, whatever the order of the steps and whichever of them fail. -/
theorem Electing.atMostOne (h : Electing svc p) {id id' : U} (hid : HoldsFirstRole svc p.shared id)
    (hid' : HoldsFirstRole svc p.shared id') : id = id' := toText_injective (h.one _ _ hid.2 hid'.2)

end AtMostOne

/-! ## And exactly one -/

section ExactlyOne
variable {J : JwtCrate} {U P : Type} [UuidText U] [DecidableEq U] {svc : AuthService J} {p : ServicePool U P}

/-- What holds at every moment of a safe run: no user is created before the latch is taken or while a call counts, an
assignment is of a created user, and once the latch is taken a call is elected or a user has the first role. -/
structure Settling (svc : AuthService J) (p : ServicePool U P) : Prop where
  empty : p.shared.hasFirstUser = false → p.shared.users.countUsers = 0
  counting : ∀ (i : Nat) user, p.threads[i]? = some (.registerCount user) → p.shared.users.countUsers = 0
  stored : ∀ (i : Nat) user isFirst, p.threads[i]? = some (.registerAssign user isFirst) →
    ∃ u, p.shared.users.findById user.id = some u
  settled : p.shared.hasFirstUser = true → (∃ (i : Nat) (call : ServiceCall U), p.threads[i]? = some call ∧ call.Elected) ∨
    ∃ id, HoldsFirstRole svc p.shared id

/-- A step puts one call at its next place, and the state where it puts it. -/
theorem Settling.set (h : Settling svc p) {i : Nat} {w : ServiceState U P} {call : ServiceCall U}
    (hempty : w.hasFirstUser = false → w.users.countUsers = 0)
    (hcount : ∀ user, call = .registerCount user → w.users.countUsers = 0)
    (hcounting : ∀ (j : Nat) user, j ≠ i → p.threads[j]? = some (.registerCount user) → w.users.countUsers = 0)
    (hassign : ∀ user isFirst, call = .registerAssign user isFirst → ∃ u, w.users.findById user.id = some u)
    (hkept : ∀ id u, p.shared.users.findById id = some u → ∃ u', w.users.findById id = some u')
    (hsettled : w.hasFirstUser = true →
      (∃ (j : Nat) (c : ServiceCall U), (p.threads.set i call)[j]? = some c ∧ c.Elected) ∨ ∃ id, HoldsFirstRole svc w id) :
    Settling svc ⟨w, p.threads.set i call⟩ where
  empty := hempty
  counting j user hj := by
    rcases Lib.getElem?_set_cases hj with ⟨-, hj⟩ | ⟨hne, hj⟩
    · exact hcount user hj.symm
    · exact hcounting j user hne hj
  stored j user isFirst hj := by
    rcases Lib.getElem?_set_cases hj with ⟨-, hj⟩ | ⟨-, hj⟩
    · exact hassign user isFirst hj.symm
    · obtain ⟨u, hu⟩ := h.stored j user isFirst hj
      exact hkept user.id u hu
  settled := hsettled

theorem Settling.moved (h : Settling svc p) {i : Nat} {call call' : ServiceCall U} (hcall : p.threads[i]? = some call)
    (hcount : ∀ user, call' ≠ .registerCount user) (hassign : ∀ user isFirst, call' ≠ .registerAssign user isFirst)
    (hkeep : call.Elected → call'.Elected) : Settling svc ⟨p.shared, p.threads.set i call'⟩ :=
  h.set h.empty (fun user hsame => absurd hsame (hcount user)) (fun j user _ hj => h.counting j user hj)
    (fun user isFirst hsame => absurd hsame (hassign user isFirst)) (fun _ u hu => ⟨u, hu⟩)
    (fun htaken => (h.settled htaken).imp_left (fun helected => elected_set hcall helected hkeep))

/-- **A safe step keeps it.** -/
theorem Settling.next (h : Settling svc p) (he : Electing svc p) {i : Nat} {call : ServiceCall U}
    {input : ServiceInput U} (hcall : p.threads[i]? = some call) (hsafe : ElectionSafe p (.step i input)) :
    Settling svc ⟨(svc.next p.shared input call).1, p.threads.set i (svc.next p.shared input call).2.1⟩ := by
  obtain ⟨hadmitted, halone⟩ := hsafe call hcall
  have heffect := register_effect svc input p.shared (he.registers i call hcall)
  generalize svc.next p.shared input call = result at heffect
  cases heffect with
  | before call' hregisters hpast hbefore =>
    refine h.moved hcall ?_ ?_ (fun helected => absurd helected.pastLatch hbefore)
    · rintro user rfl
      exact hpast trivial
    · rintro user isFirst rfl
      exact hpast trivial
  | fails e hcreate hrefused =>
    -- an elected call is not refused, and its user can be created
    refine h.moved hcall nofun nofun (fun helected => ?_)
    obtain ⟨hnone, husers⟩ := hadmitted helected
    by_cases hcreates : ∃ user isFirst, call = .registerCreate user isFirst
    · obtain ⟨user, isFirst, hsame⟩ := hcreates
      obtain ⟨users, hok⟩ := husers user isFirst hsame
      exact absurd hok (hcreate user isFirst hsame hnone users)
    · exact absurd hnone (hrefused helected.pastLatch (fun user isFirst hsame => hcreates ⟨user, isFirst, hsame⟩))
  | returned hreturned =>
    subst hreturned
    exact h.moved hcall nofun nofun (fun helected => helected.elim)
  | takes user hbefore hfree =>
    have hnobody := h.empty hfree
    exact h.set nofun (fun _ _ => hnobody) (fun _ _ _ _ => hnobody) nofun (fun _ u hu => ⟨u, hu⟩)
      (fun _ => Or.inl ⟨i, _, List.getElem?_set_self (List.getElem?_eq_some_iff.1 hcall).1, trivial⟩)
  | passes user hbefore => exact h.moved hcall nofun nofun (fun helected => absurd helected.pastLatch hbefore)
  | counts user hcount =>
    subst hcount
    exact h.moved hcall nofun nofun (fun _ => decide_eq_true (h.counting i user hcall))
  | creates user isFirst users hcreate hnone hok =>
    subst hcreate
    refine h.set (fun hfree => ?_) nofun (fun j user' _ hj => ?_) (fun user' isFirst' hsame => ?_)
      (fun _ _ => UserTable.findById_kept hok) (fun htaken => ?_)
    · cases hfree.symm.trans (he.taken i _ hcall trivial)
    · exact absurd hj (halone user isFirst users rfl hnone hok j user')
    · obtain ⟨rfl, rfl⟩ := ServiceCall.registerAssign.inj hsame
      rw [UserTable.findById_createUser hok, if_pos rfl]
      exact ⟨user, rfl⟩
    · rcases h.settled htaken with helected | ⟨id, ⟨u, hu⟩, hheld⟩
      · exact Or.inl (elected_set hcall helected id)
      · exact Or.inr ⟨id, UserTable.findById_kept hok hu, hheld⟩
  | assigns user isFirst hassign =>
    subst hassign
    refine h.set h.empty nofun (fun j user' _ hj => h.counting j user' hj) nofun (fun _ u hu => ⟨u, hu⟩)
      (fun htaken => ?_)
    cases isFirst with
    | true => exact Or.inr ⟨user.id, h.stored i user true hcall, roleHeld_of_assign (Or.inr ⟨rfl, rfl⟩)⟩
    | false =>
      rcases h.settled htaken with helected | ⟨id, hu, hheld⟩
      · exact Or.inl (elected_set hcall helected (fun hfirst => absurd hfirst Bool.false_ne_true))
      · exact Or.inr ⟨id, hu, roleHeld_of_assign (Or.inl hheld)⟩

theorem Settling.spawn (h : Settling svc p) (username password : String) :
    Settling svc { p with threads := p.threads ++ [.registerAdmit username password] } where
  empty := h.empty
  counting i user hi := by
    rcases Lib.getElem?_concat hi with hi | ⟨-, hi⟩
    · exact h.counting i user hi
    · cases hi
  stored i user isFirst hi := by
    rcases Lib.getElem?_concat hi with hi | ⟨-, hi⟩
    · exact h.stored i user isFirst hi
    · cases hi
  settled htaken := by
    refine (h.settled htaken).imp_left ?_
    rintro ⟨i, call, hi, helected⟩
    refine ⟨i, call, ?_, helected⟩
    rw [List.getElem?_append_left (List.getElem?_eq_some_iff.1 hi).1]
    exact hi

/-- **Every safe event keeps it.** -/
theorem Settling.step (h : Settling svc p) (hone : Electing svc p) {e : ServiceEvent U} (he : StartsRegister e)
    (hsafe : ElectionSafe p e) : Settling svc (svc.machine.step p e) := by
  cases e with
  | spawn call =>
    cases call with
    | registerAdmit username password => exact h.spawn username password
    | _ => exact he.elim
  | step i input =>
    cases hcall : p.threads[i]? with
    | none =>
      rw [(svc.machine_step_none hcall input).1]
      exact h
    | some call =>
      rw [(svc.machine_step hcall input).1]
      exact h.next hone hcall hsafe
  | env e => exact nomatch e

theorem settling_fresh : Settling svc (freshService : ServicePool U P) where
  empty _ := rfl
  counting _ _ h := by cases h
  stored _ _ _ h := by cases h
  settled h := by cases h

/-- **The latch is taken once**, and never given back; a registration that returns `Ok` has seen it taken. -/
theorem latch_step (h : Electing svc p) (e : ServiceEvent U) :
    (p.shared.hasFirstUser = true → (svc.machine.step p e).shared.hasFirstUser = true) ∧
      ∀ user, svc.machine.out p e = some (.ok (.registered user)) → p.shared.hasFirstUser = true := by
  cases e with
  | spawn call => exact ⟨id, nofun⟩
  | env e => exact nomatch e
  | step i input =>
    cases hcall : p.threads[i]? with
    | none =>
      rw [(svc.machine_step_none hcall input).1, (svc.machine_step_none hcall input).2]
      exact ⟨id, nofun⟩
    | some call =>
      rw [(svc.machine_step hcall input).1, (svc.machine_step hcall input).2]
      have heffect := register_effect svc input p.shared (h.registers i call hcall)
      generalize svc.next p.shared input call = result at heffect
      cases heffect with
      | takes => exact ⟨fun _ => rfl, nofun⟩
      | assigns user isFirst hassign =>
        subst hassign
        exact ⟨id, fun _ _ => h.taken i _ hcall trivial⟩
      | _ => exact ⟨id, nofun⟩

end ExactlyOne

/-! ## Every run -/

section Runs
variable {J : JwtCrate} {U P : Type} [UuidText U] [DecidableEq U] (svc : AuthService J)

/-- **Whatever the order of the steps, and whichever of them fail, at most one registered user has the first role.** -/
theorem atMostOne_administrator (hauto : svc.autoAdminFirstUser = true) (hroles : svc.firstUserRole ≠ svc.defaultRole)
    (es : List (ServiceEvent U)) (hreg : ∀ e ∈ es, StartsRegister e) (id id' : U)
    (hid : HoldsFirstRole svc (svc.machine.run (freshService : ServicePool U P) es).shared id)
    (hid' : HoldsFirstRole svc (svc.machine.run (freshService : ServicePool U P) es).shared id') : id = id' := by
  have hinv : Electing svc (svc.machine.run (freshService : ServicePool U P) es) :=
    svc.machine.run_invariant (fun _ e => StartsRegister e) (Electing svc)
      (fun _ _ h he => h.step hauto hroles he) _ es electing_fresh
      (svc.machine.along_of_forall _ _ es (fun _ e he => hreg e he))
  exact hinv.atMostOne hid hid'

/-- What a safe run has reached. -/
structure ElectionInv (es : List (ServiceEvent U)) (p : ServicePool U P) : Prop where
  electing : Electing svc p
  settling : Settling svc p
  latched : HasRegistered svc (freshService : ServicePool U P) es → p.shared.hasFirstUser = true

/-- **The election holds in every safe run** of registrations. -/
theorem firstUser_elected (hauto : svc.autoAdminFirstUser = true) (hroles : svc.firstUserRole ≠ svc.defaultRole)
    (es : List (ServiceEvent U)) (hreg : ∀ e ∈ es, StartsRegister e)
    (hsafe : svc.machine.Along ElectionSafe (freshService : ServicePool U P) es) :
    ElectionHolds svc (freshService : ServicePool U P) es := by
  have hinv : ElectionInv svc es (svc.machine.run (freshService : ServicePool U P) es) := by
    refine svc.machine.run_history (fun p e => ElectionSafe p e ∧ StartsRegister e) (ElectionInv svc) freshService ?_ ?_
      es (svc.machine.along_and _ _ _ es hsafe hreg)
    · refine ⟨electing_fresh, settling_fresh, ?_⟩
      rintro ⟨j, e, he, -⟩
      cases he
    · intro es e h ⟨hsafe, hstarts⟩
      refine ⟨h.electing.step hauto hroles hstarts, h.settling.step h.electing hstarts hsafe, fun hregistered => ?_⟩
      obtain ⟨hkeep, hanswer⟩ := latch_step h.electing e
      rcases (svc.machine.occurs_append _ _ es e).1 hregistered with hbefore | ⟨user, hnow⟩
      · exact hkeep (h.latched hbefore)
      · exact hkeep (hanswer user hnow)
  refine ⟨fun id id' hid hid' => hinv.electing.atMostOne hid hid', fun hregistered hquiet => ?_⟩
  rcases hinv.settling.settled (hinv.latched hregistered) with ⟨i, call, hcall, helected⟩ | ⟨id, hid⟩
  · rw [hquiet call (List.mem_of_getElem? hcall)] at helected
    exact helected.elim
  · exact ⟨id, hid, fun id' hid' => hinv.electing.atMostOne hid' hid⟩

end Runs

/-! ## An install without an administrator -/

/-- The install of the first example users. -/
def townService : AuthService (Auth.tableJwt []) := ⟨Auth.tableJwtManager [], plainHasher, .ascii, true, "admin", "user", true⟩

def townInput (id : String) (refused : Option ServiceError) : ServiceInput String := ⟨1000, id, "salt", "jti", [], refused⟩

/-- Ann takes the latch and the database fails her count; Bob registers. -/
def failedCountRun : List (ServiceEvent String) :=
  [.spawn (.registerAdmit "ann" "Passw0rd-ann"), .spawn (.registerAdmit "bob" "Passw0rd-bob"), .step 0 (townInput "u-1" none),
    .step 0 (townInput "u-1" none), .step 0 (townInput "u-1" none),
    .step 0 (townInput "u-1" (some (.other "database error"))), .step 1 (townInput "u-2" none),
    .step 1 (townInput "u-2" none), .step 1 (townInput "u-2" none), .step 1 (townInput "u-2" none),
    .step 1 (townInput "u-2" none)]

/-- **No administrator**: the registration that took the latch failed, and no later one counts. -/
theorem failedCountRun_no_administrator : townService.autoAdminFirstUser = true ∧
    (∀ e ∈ failedCountRun, StartsRegister e) ∧
    ¬ ElectionHolds townService (freshService : ServicePool String String) failedCountRun := by
  refine ⟨rfl, by decide, fun h => ?_⟩
  have hthreads : (townService.machine.run (freshService : ServicePool String String) failedCountRun).threads =
      [.returned, .returned] := rfl
  have hroles : (townService.machine.run (freshService : ServicePool String String) failedCountRun).shared.assignments =
      InMemoryAssignmentStore.new.assignRole "u-2" "user" := rfl
  obtain ⟨id, ⟨-, hheld⟩, -⟩ := h.2 ⟨10, _, rfl, ⟨"u-2", "bob", "Passw0rd-bob", true⟩, rfl⟩
    (fun call hcall => by rw [hthreads] at hcall; simpa using hcall)
  unfold RoleHeld at hheld
  rw [hroles, InMemoryAssignmentStore.rolesOf_assignRole] at hheld
  split at hheld
  · rcases List.mem_insert_iff.1 hheld with hrole | hold
    · exact absurd hrole (by decide)
    · cases hold
  · cases hheld

theorem electionSafe_admitted {U P : Type} [UuidText U] [DecidableEq U] {p : ServicePool U P} {i : Nat} {call : ServiceCall U}
    {input : ServiceInput U} (hcall : p.threads[i]? = some call) (hadmitted : input.refused = none)
    (hcreate : ∀ user isFirst, call = .registerCreate user isFirst →
      (∃ users, p.shared.users.createUser user = .ok users) ∧ ∀ user', ServiceCall.registerCount user' ∉ p.threads) :
    ElectionSafe p (.step i input) := by
  intro call' hcall'
  obtain rfl := Option.some.inj (hcall.symm.trans hcall')
  refine ⟨fun _ => ⟨hadmitted, fun user isFirst hsame => (hcreate user isFirst hsame).1⟩, ?_⟩
  intro user isFirst users hsame _ _ j user' hj
  exact (hcreate user isFirst hsame).2 user' (List.mem_of_getElem? hj)

/-- Ann and Bob register at once: Ann takes the latch, and counts before Bob's row is there. -/
def twoRun : List (ServiceEvent String) :=
  [.spawn (.registerAdmit "ann" "Passw0rd-ann"), .spawn (.registerAdmit "bob" "Passw0rd-bob"),
    .step 0 (townInput "u-1" none), .step 1 (townInput "u-2" none), .step 0 (townInput "u-1" none),
    .step 1 (townInput "u-2" none), .step 0 (townInput "u-1" none), .step 1 (townInput "u-2" none),
    .step 0 (townInput "u-1" none), .step 1 (townInput "u-2" none), .step 0 (townInput "u-1" none),
    .step 1 (townInput "u-2" none), .step 0 (townInput "u-1" none)]

theorem twoRun_threads (n : Nat) (hn : n = 9 ∨ n = 10) (user : UserRecord String) :
    ServiceCall.registerCount user ∉
      (townService.machine.run (freshService : ServicePool String String) (twoRun.take n)).threads := by
  rcases hn with rfl | rfl
  · exact List.not_mem_cons_of_ne_of_not_mem nofun (List.not_mem_cons_of_ne_of_not_mem nofun List.not_mem_nil)
  · exact List.not_mem_cons_of_ne_of_not_mem nofun (List.not_mem_cons_of_ne_of_not_mem nofun List.not_mem_nil)

theorem firstUser_elected_two : ElectionHolds townService (freshService : ServicePool String String) twoRun := by
  refine firstUser_elected townService rfl (by decide) twoRun (by decide)
    ⟨trivial, trivial, ?_, ?_, ?_, ?_, ?_, ?_, ?_, ?_, ?_, ?_, ?_, trivial⟩
  · exact electionSafe_admitted rfl rfl nofun
  · exact electionSafe_admitted rfl rfl nofun
  · exact electionSafe_admitted rfl rfl nofun
  · exact electionSafe_admitted rfl rfl nofun
  · exact electionSafe_admitted rfl rfl nofun
  · exact electionSafe_admitted rfl rfl nofun
  · exact electionSafe_admitted rfl rfl nofun
  · refine electionSafe_admitted rfl rfl (fun user isFirst hsame => ⟨?_, twoRun_threads 9 (Or.inl rfl)⟩)
    obtain ⟨rfl, -⟩ := ServiceCall.registerCreate.inj hsame
    exact ⟨_, rfl⟩
  · refine electionSafe_admitted rfl rfl (fun user isFirst hsame => ⟨?_, twoRun_threads 10 (Or.inr rfl)⟩)
    obtain ⟨rfl, -⟩ := ServiceCall.registerCreate.inj hsame
    exact ⟨_, rfl⟩
  · exact electionSafe_admitted rfl rfl nofun
  · exact electionSafe_admitted rfl rfl nofun

end Service
end Kirino
