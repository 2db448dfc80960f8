import Kirino.Lib.Fallible
import Kirino.Rbac.Constraints
/-!
# ConstraintValidator — the gate before an assignment (`rbac/constraints/validator.rs`, `rbac/constraints/policies.rs`)

Four checks are made one after the other, each over the constraints of its kind that the store lists.  The separation
check counts the role to be assigned in, the cardinality check counts its holders without it.
-/
namespace Kirino
namespace Rbac

open Lib (ok_of_bind ok_of_mapError forM_eq_ok_iff)

/-! ## The constraints -/

abbrev SsdPolicy := SodPolicy

structure CardinalityConstraint where
  roleName : String
  maxSubjects : Nat
deriving DecidableEq

namespace CardinalityConstraint

def new (roleName : String) (maxSubjects : Nat) : CardinalityConstraint := ⟨roleName, max maxSubjects 1⟩

def validate (constraint : CardinalityConstraint) (currentCount : Nat) : Bool :=
  decide (currentCount < constraint.maxSubjects)

end CardinalityConstraint

structure PrerequisiteConstraint where
  roleName : String
  requires : String
deriving DecidableEq

namespace PrerequisiteConstraint

def new (roleName requires : String) : PrerequisiteConstraint := ⟨roleName, requires⟩

def validate (constraint : PrerequisiteConstraint) (assignedRoles : List String) : Bool :=
  decide (constraint.requires ∈ assignedRoles)

end PrerequisiteConstraint

structure TemporalConstraint where
  roleName : String
  validFrom : Int
  validUntil : Int
deriving DecidableEq

namespace TemporalConstraint

/-- The text of the error shows the two instants as the clock library renders them. -/
def new (render : Int → String) (roleName : String) (validFrom validUntil : Int) : Except String TemporalConstraint :=
  if validFrom ≥ validUntil then
    .error s!"TemporalConstraint: valid_from ({render validFrom}) must be before valid_until ({render validUntil})"
  else .ok ⟨roleName, validFrom, validUntil⟩

def isValid (constraint : TemporalConstraint) (now : Int) : Bool :=
  decide (now ≥ constraint.validFrom) && decide (now ≤ constraint.validUntil)

/-- The window of a constraint that can be built holds more than one instant, and no other does. -/
theorem isOk_new_iff (render : Int → String) (roleName : String) (validFrom validUntil : Int) :
    (new render roleName validFrom validUntil).isOk = true ↔
      ∃ t t', t < t' ∧ isValid ⟨roleName, validFrom, validUntil⟩ t = true ∧
        isValid ⟨roleName, validFrom, validUntil⟩ t' = true := by
  simp only [isValid, Bool.and_eq_true, decide_eq_true_eq]
  unfold new
  split
  · next hge =>
    refine ⟨nofun, ?_⟩
    rintro ⟨t, t', hlt, ⟨hfrom, -⟩, -, huntil⟩
    omega
  · next hlt => exact ⟨fun _ => ⟨validFrom, validUntil, by omega, by omega, by omega⟩, fun _ => rfl⟩

end TemporalConstraint

/-- The queries the validator makes. -/
class ConstraintLists (C : Type) (E : outParam Type) extends ConstraintStore C E where
  listSsdPolicies : C → Except E (List SsdPolicy)
  listCardinalityConstraints : C → Except E (List CardinalityConstraint)
  listPrerequisiteConstraints : C → Except E (List PrerequisiteConstraint)
  listTemporalConstraints : C → Except E (List TemporalConstraint)

export ConstraintLists (listSsdPolicies listCardinalityConstraints listPrerequisiteConstraints listTemporalConstraints)

/-- The in-memory store, with its constraints of all five kinds. -/
structure InMemoryConstraintLists extends InMemoryConstraintStore where
  ssdPolicies : List SsdPolicy
  cardinality : List CardinalityConstraint
  prerequisites : List PrerequisiteConstraint
  temporal : List TemporalConstraint

instance : ConstraintLists InMemoryConstraintLists Empty where
  listDsdPolicies store := .ok store.dsdPolicies
  listSsdPolicies store := .ok store.ssdPolicies
  listCardinalityConstraints store := .ok store.cardinality
  listPrerequisiteConstraints store := .ok store.prerequisites
  listTemporalConstraints store := .ok store.temporal

/-! ## The checks -/

inductive ConstraintError (E : Type) where
  | store (e : E)
  | constraintViolation (message : String)
deriving DecidableEq

section Checks
variable {C E : Type} [ConstraintLists C E]

/-- The first constraint that denies ends the check. -/
def denyFirst {α : Type} (denies : α → Bool) (message : α → String) (constraints : List α) :
    Except (ConstraintError E) Unit :=
  constraints.forM (fun constraint =>
    if denies constraint then .error (.constraintViolation (message constraint)) else .ok ())

/-- The check of a separation policy, static or dynamic: a role already there passes once the store was read. -/
def validateSod (policies : Except E (List SodPolicy)) (message : SodPolicy → String) (roles : List String)
    (newRole : String) : Except (ConstraintError E) Unit :=
  (policies.mapError .store).bind fun policies =>
    if newRole ∈ roles then .ok ()
    else denyFirst (fun policy => !policy.validate (Multiset.ofList (roles ++ [newRole]))) message policies

def validateSsd (store : C) (currentRoles : List String) (newRole : String) : Except (ConstraintError E) Unit :=
  validateSod (listSsdPolicies store)
    (fun policy =>
      s!"SSD policy '{policy.name}' violated: adding '{newRole}' would exceed cardinality {policy.cardinality}")
    currentRoles newRole

def validateDsd (store : C) (activeRoles : List String) (newRole : String) : Except (ConstraintError E) Unit :=
  validateSod (ConstraintStore.listDsdPolicies store)
    (fun policy => s!"DSD policy '{policy.name}' violated: activating '{newRole}' exceeds cardinality {policy.cardinality}")
    activeRoles newRole

/-- The check of the constraints on one role. -/
def validateRole {α : Type} (constraints : Except E (List α)) (roleOf : α → String) (passes : α → Bool)
    (message : α → String) (roleName : String) : Except (ConstraintError E) Unit :=
  (constraints.mapError .store).bind
    (denyFirst (fun constraint => decide (roleOf constraint = roleName) && !passes constraint) message)

def validateTemporal (store : C) (now : Int) (roleName : String) : Except (ConstraintError E) Unit :=
  validateRole (listTemporalConstraints store) TemporalConstraint.roleName (fun constraint => constraint.isValid now)
    (fun _ => s!"Temporal constraint: role '{roleName}' is not available at the current time") roleName

def validateCardinality (store : C) (roleName : String) (currentSubjectCount : Nat) :
    Except (ConstraintError E) Unit :=
  validateRole (listCardinalityConstraints store) CardinalityConstraint.roleName
    (fun constraint => constraint.validate currentSubjectCount)
    (fun constraint =>
      s!"Cardinality constraint: role '{roleName}' already has {currentSubjectCount} subjects (max {constraint.maxSubjects})")
    roleName

def validatePrerequisite (store : C) (roleName : String) (currentRoles : List String) :
    Except (ConstraintError E) Unit :=
  validateRole (listPrerequisiteConstraints store) PrerequisiteConstraint.roleName
    (fun constraint => constraint.validate currentRoles)
    (fun constraint => s!"Prerequisite constraint: role '{roleName}' requires '{constraint.requires}'") roleName

def validateAssignment (store : C) (now : Int) (currentRoles : List String) (newRole : String)
    (currentSubjectCount : Nat) : Except (ConstraintError E) Unit :=
  (validateSsd store currentRoles newRole).bind fun _ =>
    (validateCardinality store newRole currentSubjectCount).bind fun _ =>
      (validatePrerequisite store newRole currentRoles).bind fun _ => validateTemporal store now newRole

/-! ## What a check that passed has checked -/

section Passed
omit [ConstraintLists C E]
variable {α : Type} {message : α → String}

theorem denyFirst_eq_ok_iff {denies : α → Bool} {constraints : List α} :
    denyFirst (E := E) denies message constraints = .ok () ↔ ∀ constraint ∈ constraints, denies constraint = false := by
  unfold denyFirst
  rw [forM_eq_ok_iff]
  refine forall₂_congr (fun constraint _ => ?_)
  cases denies constraint <;> simp

theorem listed_eq_ok_iff {constraints : Except E (List α)} {f : List α → Except (ConstraintError E) Unit} :
    (constraints.mapError .store).bind f = .ok () ↔ ∃ listed, constraints = .ok listed ∧ f listed = .ok () := by
  constructor
  · intro h
    obtain ⟨listed, hlisted, hf⟩ := ok_of_bind h
    exact ⟨listed, ok_of_mapError hlisted, hf⟩
  · rintro ⟨listed, rfl, hf⟩
    exact hf

/-- **A separation check passes when the role is already there, or every policy allows it beside the others.** -/
theorem validateSod_eq_ok_iff {policies : Except E (List SodPolicy)} {message : SodPolicy → String}
    {roles : List String} {newRole : String} :
    validateSod policies message roles newRole = .ok () ↔ ∃ listed, policies = .ok listed ∧
      (newRole ∉ roles → ∀ policy ∈ listed, policy.validate (Multiset.ofList (roles ++ [newRole])) = true) := by
  unfold validateSod
  rw [listed_eq_ok_iff]
  refine exists_congr (fun listed => and_congr_right (fun _ => ?_))
  by_cases hheld : newRole ∈ roles
  · simp [hheld]
  · rw [if_neg hheld, denyFirst_eq_ok_iff]
    simp [hheld]

theorem validateRole_eq_ok_iff {constraints : Except E (List α)} {roleOf : α → String} {passes : α → Bool}
    {roleName : String} : validateRole constraints roleOf passes message roleName = .ok () ↔
      ∃ listed, constraints = .ok listed ∧ ∀ constraint ∈ listed, roleOf constraint = roleName → passes constraint = true := by
  unfold validateRole
  rw [listed_eq_ok_iff]
  refine exists_congr (fun listed => and_congr_right (fun _ => ?_))
  rw [denyFirst_eq_ok_iff]
  refine forall₂_congr (fun constraint _ => ?_)
  by_cases hrole : roleOf constraint = roleName <;> simp [hrole]

end Passed

/-- What the store lists lets the role be assigned to a subject with the roles, the role having `count` holders. -/
structure Admits (store : C) (now : Int) (currentRoles : List String) (newRole : String) (count : Nat) : Prop where
  ssd : ∃ policies, listSsdPolicies store = .ok policies ∧
    (newRole ∉ currentRoles → ∀ policy ∈ policies, policy.validate (Multiset.ofList (currentRoles ++ [newRole])) = true)
  cardinality : ∃ constraints, listCardinalityConstraints store = .ok constraints ∧
    ∀ constraint ∈ constraints, constraint.roleName = newRole → count < constraint.maxSubjects
  prerequisite : ∃ constraints, listPrerequisiteConstraints store = .ok constraints ∧
    ∀ constraint ∈ constraints, constraint.roleName = newRole → constraint.requires ∈ currentRoles
  temporal : ∃ constraints, listTemporalConstraints store = .ok constraints ∧
    ∀ constraint ∈ constraints, constraint.roleName = newRole → constraint.validFrom ≤ now ∧ now ≤ constraint.validUntil

/-- **An assignment is accepted exactly when every kind of constraint admits it.** -/
theorem validateAssignment_eq_ok_iff {store : C} {now : Int} {currentRoles : List String} {newRole : String}
    {count : Nat} : validateAssignment store now currentRoles newRole count = .ok () ↔
      Admits store now currentRoles newRole count := by
  have hcardinality : validateCardinality store newRole count = .ok () ↔
      ∃ constraints, listCardinalityConstraints store = .ok constraints ∧
        ∀ constraint ∈ constraints, constraint.roleName = newRole → count < constraint.maxSubjects := by
    unfold validateCardinality
    rw [validateRole_eq_ok_iff]
    simp only [CardinalityConstraint.validate, decide_eq_true_eq]
  have hprerequisite : validatePrerequisite store newRole currentRoles = .ok () ↔
      ∃ constraints, listPrerequisiteConstraints store = .ok constraints ∧
        ∀ constraint ∈ constraints, constraint.roleName = newRole → constraint.requires ∈ currentRoles := by
    unfold validatePrerequisite
    rw [validateRole_eq_ok_iff]
    simp only [PrerequisiteConstraint.validate, decide_eq_true_eq]
  have htemporal : validateTemporal store now newRole = .ok () ↔
      ∃ constraints, listTemporalConstraints store = .ok constraints ∧ ∀ constraint ∈ constraints,
        constraint.roleName = newRole → constraint.validFrom ≤ now ∧ now ≤ constraint.validUntil := by
    unfold validateTemporal
    rw [validateRole_eq_ok_iff]
    simp only [TemporalConstraint.isValid, Bool.and_eq_true, decide_eq_true_eq, ge_iff_le]
  constructor
  · intro h
    obtain ⟨_, hssd, h⟩ := ok_of_bind h
    obtain ⟨_, hcount, h⟩ := ok_of_bind h
    obtain ⟨_, hrequired, hwindow⟩ := ok_of_bind h
    exact ⟨validateSod_eq_ok_iff.1 hssd, hcardinality.1 hcount, hprerequisite.1 hrequired, htemporal.1 hwindow⟩
  · intro h
    unfold validateAssignment
    have hssd : validateSsd store currentRoles newRole = .ok () := validateSod_eq_ok_iff.2 h.ssd
    rw [hssd, hcardinality.2 h.cardinality, hprerequisite.2 h.prerequisite, htemporal.2 h.temporal]
    rfl

end Checks

end Rbac
end Kirino
