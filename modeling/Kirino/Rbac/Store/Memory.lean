import Mathlib.Data.List.Basic
import Mathlib.Data.Finset.Insert
import Kirino.Lib.HashMap
import Kirino.Rbac.Traits
/-!
# Memory — the in-memory stores (`rbac/store/memory.rs`, `rbac/store/registry.rs`)

The assignment store keeps three maps, each keyed by the subject's id; a query never fails, and a write changes the
rows of its subject's id alone, as `SubjectRows.apply` says (`rowsOf_write`).  A set of role names is the list of its
members in iteration order.  The static role registry keeps the roles and their parents in two maps.
-/
namespace Kirino
namespace Rbac

open Lib (HashMap)

/-! ## The assignment store -/

structure InMemoryAssignmentStore (S P : Type) where
  roleAssignments : HashMap String (List String)
  extraPerms : HashMap String (Finset P)
  deniedPerms : HashMap String (Finset P)

namespace InMemoryAssignmentStore

variable {S P : Type} [Subject S]

def new : InMemoryAssignmentStore S P := ⟨HashMap.empty, HashMap.empty, HashMap.empty⟩

def assignRole (st : InMemoryAssignmentStore S P) (s : S) (roleName : String) : InMemoryAssignmentStore S P :=
  let roles := (st.roleAssignments.get? (subjectId s)).getD []
  { st with roleAssignments := st.roleAssignments.insert (subjectId s) (roles.insert roleName) }

def revokeRole (st : InMemoryAssignmentStore S P) (s : S) (roleName : String) : InMemoryAssignmentStore S P :=
  match st.roleAssignments.get? (subjectId s) with
  | some roles =>
    let roles := roles.filter (fun r => decide (r ≠ roleName))
    { st with roleAssignments := st.roleAssignments.insert (subjectId s) roles }
  | none => st

def setExtraPermissions (st : InMemoryAssignmentStore S P) (s : S) (perms : Finset P) : InMemoryAssignmentStore S P :=
  { st with extraPerms := st.extraPerms.insert (subjectId s) perms }

def setDeniedPermissions (st : InMemoryAssignmentStore S P) (s : S) (perms : Finset P) : InMemoryAssignmentStore S P :=
  { st with deniedPerms := st.deniedPerms.insert (subjectId s) perms }

def rolesOf (st : InMemoryAssignmentStore S P) (s : S) : List String :=
  (st.roleAssignments.get? (subjectId s)).getD []

def extraPermissions (st : InMemoryAssignmentStore S P) (s : S) : Finset P :=
  (st.extraPerms.get? (subjectId s)).getD ∅

def deniedPermissions (st : InMemoryAssignmentStore S P) (s : S) : Finset P :=
  (st.deniedPerms.get? (subjectId s)).getD ∅

instance : AssignmentStore (InMemoryAssignmentStore S P) S P Empty where
  rolesOf st s := .ok (st.rolesOf s)
  extraPermissions st s := .ok (st.extraPermissions s)
  deniedPermissions st s := .ok (st.deniedPermissions s)
  write st
    | .assignRole s roleName => st.assignRole s roleName
    | .revokeRole s roleName => st.revokeRole s roleName
    | .setExtraPermissions s perms => st.setExtraPermissions s perms
    | .setDeniedPermissions s perms => st.setDeniedPermissions s perms

theorem rowsOf_eq (st : InMemoryAssignmentStore S P) (s : S) :
    rowsOf st s = ⟨st.rolesOf s, st.extraPermissions s, st.deniedPermissions s⟩ := rfl

theorem errorFree (st : InMemoryAssignmentStore S P) : ErrorFree st := fun _ => ⟨rfl, rfl, rfl⟩

section Writes
variable (st : InMemoryAssignmentStore S P) (s s' : S) (roleName : String) (perms : Finset P)

theorem rolesOf_assignRole : (st.assignRole s' roleName).rolesOf s =
    if subjectId s = subjectId s' then (st.rolesOf s).insert roleName else st.rolesOf s := by
  simp only [rolesOf, assignRole, HashMap.get?_insert]
  by_cases hid : subjectId s = subjectId s' <;> simp [hid]

theorem rolesOf_revokeRole : (st.revokeRole s' roleName).rolesOf s =
    if subjectId s = subjectId s' then (st.rolesOf s).filter (fun r => decide (r ≠ roleName)) else st.rolesOf s := by
  simp only [rolesOf, revokeRole]
  cases hroles : st.roleAssignments.get? (subjectId s') with
  | none => by_cases hid : subjectId s = subjectId s' <;> simp [hid, hroles]
  | some roles => by_cases hid : subjectId s = subjectId s' <;> simp [hid, hroles, HashMap.get?_insert]

theorem extraPermissions_revokeRole : (st.revokeRole s' roleName).extraPermissions s = st.extraPermissions s := by
  unfold extraPermissions revokeRole
  split <;> rfl

theorem deniedPermissions_revokeRole : (st.revokeRole s' roleName).deniedPermissions s = st.deniedPermissions s := by
  unfold deniedPermissions revokeRole
  split <;> rfl

theorem extraPermissions_setExtraPermissions : (st.setExtraPermissions s' perms).extraPermissions s =
    if subjectId s = subjectId s' then perms else st.extraPermissions s := by
  simp only [extraPermissions, setExtraPermissions, HashMap.get?_insert]
  by_cases hid : subjectId s = subjectId s' <;> simp [hid]

theorem deniedPermissions_setDeniedPermissions : (st.setDeniedPermissions s' perms).deniedPermissions s =
    if subjectId s = subjectId s' then perms else st.deniedPermissions s := by
  simp only [deniedPermissions, setDeniedPermissions, HashMap.get?_insert]
  by_cases hid : subjectId s = subjectId s' <;> simp [hid]

end Writes

/-- **A write changes the rows of its subject's id, and no others.** -/
theorem rowsOf_write (st : InMemoryAssignmentStore S P) (w : StoreWrite S P) (s : S) :
    rowsOf (AssignmentStore.write st w) s =
      if subjectId s = subjectId w.subject then (rowsOf st s).apply w else rowsOf st s := by
  cases w with
  | assignRole s' roleName =>
    have h : rowsOf (st.assignRole s' roleName) s =
        ⟨(st.assignRole s' roleName).rolesOf s, st.extraPermissions s, st.deniedPermissions s⟩ := rfl
    simp only [AssignmentStore.write, StoreWrite.subject, h, rolesOf_assignRole]
    by_cases hid : subjectId s = subjectId s' <;> simp [hid, rowsOf_eq, SubjectRows.apply]
  | revokeRole s' roleName =>
    simp only [AssignmentStore.write, StoreWrite.subject, rowsOf_eq, rolesOf_revokeRole, extraPermissions_revokeRole,
      deniedPermissions_revokeRole]
    by_cases hid : subjectId s = subjectId s' <;> simp [hid, SubjectRows.apply]
  | setExtraPermissions s' perms =>
    have h : rowsOf (st.setExtraPermissions s' perms) s =
        ⟨st.rolesOf s, (st.setExtraPermissions s' perms).extraPermissions s, st.deniedPermissions s⟩ := rfl
    simp only [AssignmentStore.write, StoreWrite.subject, h, extraPermissions_setExtraPermissions]
    by_cases hid : subjectId s = subjectId s' <;> simp [hid, rowsOf_eq, SubjectRows.apply]
  | setDeniedPermissions s' perms =>
    have h : rowsOf (st.setDeniedPermissions s' perms) s =
        ⟨st.rolesOf s, st.extraPermissions s, (st.setDeniedPermissions s' perms).deniedPermissions s⟩ := rfl
    simp only [AssignmentStore.write, StoreWrite.subject, h, deniedPermissions_setDeniedPermissions]
    by_cases hid : subjectId s = subjectId s' <;> simp [hid, rowsOf_eq, SubjectRows.apply]

end InMemoryAssignmentStore

/-! ## The static role registry -/

structure HierarchyNode (P : Type) where
  name : String
  permissions : Finset P
  parents : List String

structure StaticRoleRegistry (P : Type) where
  roles : HashMap String (HierarchyNode P)
  parents : HashMap String (List String)

namespace StaticRoleRegistry

variable {P : Type}

def new : StaticRoleRegistry P := ⟨HashMap.empty, HashMap.empty⟩

/-- Registering a role drops the parents set for its name. -/
def register (reg : StaticRoleRegistry P) (role : HierarchyNode P) : StaticRoleRegistry P :=
  ⟨reg.roles.insert role.name role, reg.parents.remove role.name⟩

def registerHierarchical (reg : StaticRoleRegistry P) (role : HierarchyNode P) : StaticRoleRegistry P :=
  ⟨reg.roles.insert role.name role, reg.parents.insert role.name role.parents⟩

def toRoleRegistry (reg : StaticRoleRegistry P) : RoleRegistry P where
  getRolePermissions roleName := (reg.roles.get? roleName).map HierarchyNode.permissions
  roleParents roleName := (reg.parents.get? roleName).getD []
  listRoleNames := reg.roles.keys
  listed roleName h := by
    rw [Option.isSome_map] at h
    exact (reg.roles.mem_keys_iff roleName).2 (Option.isSome_iff_exists.1 h)

end StaticRoleRegistry

/-- Two roles: `viewer` holds `read`; `admin` holds `write` and inherits from `viewer`. -/
def testRegistry : RoleRegistry TestPerm :=
  ((StaticRoleRegistry.new.register ⟨"viewer", {.read}, []⟩).registerHierarchical
    ⟨"admin", {.write}, ["viewer"]⟩).toRoleRegistry

def viewerStore : InMemoryAssignmentStore String TestPerm := InMemoryAssignmentStore.new.assignRole "user" "viewer"

def adminStore : InMemoryAssignmentStore String TestPerm := InMemoryAssignmentStore.new.assignRole "user" "admin"

end Rbac
end Kirino
