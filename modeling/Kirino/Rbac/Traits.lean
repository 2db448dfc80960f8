import Mathlib.Data.Finset.Basic
import Mathlib.Data.Finset.SDiff
/-!
# Traits — subjects, permissions, role registries and assignment stores (`rbac/traits.rs`)

The traits the engine is generic over, cut to the methods its decision paths call: a permission is its `name`, a
subject its `subjectId` (and what a stored id converts back to), a role registry answers a role's permissions and parents,
and an assignment store answers three queries about a subject, each of which may fail, and takes four writes, each about
one subject.
-/
namespace Kirino
namespace Rbac

class Permission (P : Type) where
  name : P → String

class Subject (S : Type) where
  subjectId : S → String

export Permission (name)
export Subject (subjectId)

instance : Subject String := ⟨id⟩

/-- The fallible conversion of a stored subject id. -/
class SubjectOfId (S : Type) [Subject S] where
  trySubjectOfId : String → Except String S

export SubjectOfId (trySubjectOfId)

instance : SubjectOfId String := ⟨.ok⟩

/-- The permissions of the repository's own tests (`test_utils.rs`). -/
inductive TestPerm where
  | read
  | write
  | delete
  | admin
deriving DecidableEq, Repr

instance : Permission TestPerm where
  name
    | .read => "read"
    | .write => "write"
    | .delete => "delete"
    | .admin => "admin"

/-- A role registry.  It knows finitely many roles: every role it answers permissions for is listed. -/
structure RoleRegistry (P : Type) where
  getRolePermissions : String → Option (Finset P)
  roleParents : String → List String
  listRoleNames : List String
  listed : ∀ roleName, (getRolePermissions roleName).isSome → roleName ∈ listRoleNames

inductive StoreWrite (S P : Type) where
  | assignRole (subject : S) (roleName : String)
  | revokeRole (subject : S) (roleName : String)
  | setExtraPermissions (subject : S) (perms : Finset P)
  | setDeniedPermissions (subject : S) (perms : Finset P)

def StoreWrite.subject {S P : Type} : StoreWrite S P → S
  | .assignRole s _ => s
  | .revokeRole s _ => s
  | .setExtraPermissions s _ => s
  | .setDeniedPermissions s _ => s

/-- An assignment store: the state a value of the store's type holds, read by three queries and changed by `write`.
`E` is the type of its errors. -/
class AssignmentStore (A : Type) (S P E : outParam Type) where
  rolesOf : A → S → Except E (List String)
  extraPermissions : A → S → Except E (Finset P)
  deniedPermissions : A → S → Except E (Finset P)
  write : A → StoreWrite S P → A

export AssignmentStore (rolesOf extraPermissions deniedPermissions)

structure SubjectRows (P : Type) where
  roles : List String
  extra : Finset P
  denied : Finset P

/-- What a write about the subject makes of its rows. -/
def SubjectRows.apply {S P : Type} (rows : SubjectRows P) : StoreWrite S P → SubjectRows P
  | .assignRole _ roleName => { rows with roles := rows.roles.insert roleName }
  | .revokeRole _ roleName => { rows with roles := rows.roles.filter (fun r => decide (r ≠ roleName)) }
  | .setExtraPermissions _ perms => { rows with extra := perms }
  | .setDeniedPermissions _ perms => { rows with denied := perms }

section Rows
variable {A S P E : Type} [AssignmentStore A S P E]

/-- What the three queries answer for a subject, a failed query counting as nothing recorded. -/
def rowsOf (store : A) (s : S) : SubjectRows P :=
  ⟨((rolesOf store s).toOption).getD [], ((extraPermissions store s).toOption).getD ∅,
    ((deniedPermissions store s).toOption).getD ∅⟩

def ErrorFree (store : A) : Prop :=
  ∀ s : S, rolesOf store s = .ok (rowsOf store s).roles ∧ extraPermissions store s = .ok (rowsOf store s).extra ∧
    deniedPermissions store s = .ok (rowsOf store s).denied

end Rows

end Rbac
end Kirino
