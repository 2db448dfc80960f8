import Mathlib.Order.Basic
import Mathlib.Data.String.Basic
import Kirino.Lib.HashMap
/-!
# WorkspaceGuard — subject, group and workspace role (`rbac/workspace_guard.rs`)

A subject holds at most one role on a workspace: its direct membership, else what its groups grant.  What a role allows
is read off the permission's name.  The Owner's rule holds of every name and the Operator's of every name outside two
reserved families; the Viewer's is a list of its own, and it meets the reserved families (`viewable_reserved`).
-/
namespace Kirino
namespace Rbac

open Lib (HashMap)

/-! ## Names -/

/-- The name begins with the pattern. -/
def startsWith (name pattern : String) : Bool := pattern.toList.isPrefixOf name.toList

/-- The name ends with the pattern. -/
def endsWith (name pattern : String) : Bool := pattern.toList.isSuffixOf name.toList

/-! ## Roles -/

inductive WorkspaceRole where
  | viewer
  | operator
  | owner
deriving DecidableEq, Repr

namespace WorkspaceRole

/-- The place in the declaration, which is the order of privilege. -/
def rank : WorkspaceRole → Nat
  | .viewer => 0
  | .operator => 1
  | .owner => 2

theorem rank_injective : Function.Injective rank := by
  intro r r' h
  cases r <;> cases r' <;> first | rfl | cases h

instance : LinearOrder WorkspaceRole := LinearOrder.lift' rank rank_injective

theorem le_iff_rank (r r' : WorkspaceRole) : r ≤ r' ↔ r.rank ≤ r'.rank := Iff.rfl

def asStr : WorkspaceRole → String
  | .viewer => "viewer"
  | .operator => "operator"
  | .owner => "owner"

def fromStrLossy (s : String) : Option WorkspaceRole :=
  if s = "owner" then some .owner
  else if s = "operator" then some .operator
  else if s = "viewer" then some .viewer
  else none

/-- **The stored name of a role is read back as that role, and nothing else is.** -/
theorem fromStrLossy_eq_some_iff (s : String) (r : WorkspaceRole) : fromStrLossy s = some r ↔ s = r.asStr := by
  constructor
  · intro h
    unfold fromStrLossy at h
    split at h
    · rename_i hs
      obtain rfl := Option.some.inj h
      exact hs
    · split at h
      · rename_i hs
        obtain rfl := Option.some.inj h
        exact hs
      · split at h
        · rename_i hs
          obtain rfl := Option.some.inj h
          exact hs
        · cases h
  · rintro rfl
    cases r <;> rfl

end WorkspaceRole

/-! ## What a role allows -/

class ScopedPermission (P : Type) where
  name : P → String

/-- The Viewer's names. -/
def viewable (name : String) : Bool :=
  endsWith name ".list" || endsWith name ".read" || startsWith name "device.list"

/-- The names the Operator is denied. -/
def reserved (name : String) : Bool := startsWith name "workspace.manage" || startsWith name "rbac."

section RoleCan
variable {P : Type} [ScopedPermission P]

def roleCan (role : WorkspaceRole) (perm : P) : Bool :=
  match role with
  | .owner => true
  | .operator =>
    let name := ScopedPermission.name perm
    !startsWith name "workspace.manage" && !startsWith name "rbac."
  | .viewer =>
    let name := ScopedPermission.name perm
    endsWith name ".list" || endsWith name ".read" || startsWith name "device.list"

theorem roleCan_owner (perm : P) : roleCan .owner perm = true := rfl

theorem roleCan_operator (perm : P) : roleCan .operator perm = !reserved (ScopedPermission.name perm) := by
  unfold roleCan reserved
  rw [Bool.not_or]

theorem roleCan_viewer (perm : P) : roleCan .viewer perm = viewable (ScopedPermission.name perm) := rfl

/-- **Raising a role loses a name only on the way from Viewer to Operator**, and then the names that are both
viewable and reserved. -/
theorem roleCan_lost_iff {r r' : WorkspaceRole} (h : r ≤ r') (perm : P) :
    roleCan r perm = true ∧ roleCan r' perm = false ↔
      r = .viewer ∧ r' = .operator ∧ viewable (ScopedPermission.name perm) = true ∧
        reserved (ScopedPermission.name perm) = true := by
  rw [WorkspaceRole.le_iff_rank] at h
  cases r' with
  | owner => simp [roleCan_owner]
  | operator =>
    cases r with
    | viewer => simp [roleCan_viewer, roleCan_operator]
    | operator => simp
    | owner => simp [WorkspaceRole.rank] at h
  | viewer =>
    cases r with
    | viewer => simp
    | operator => simp [WorkspaceRole.rank] at h
    | owner => simp [WorkspaceRole.rank] at h

end RoleCan

/-! ## The guard -/

/-- A workspace store: two fallible lookups of a subject's role on a workspace. -/
class WorkspaceStore (A : Type) (S W E : outParam Type) where
  directMembership : A → S → W → Except E (Option WorkspaceRole)
  groupGrants : A → S → W → Except E (Option WorkspaceRole)

export WorkspaceStore (directMembership groupGrants)

section Guard
variable {A S W E P : Type} [WorkspaceStore A S W E] [ScopedPermission P]

def resolveWorkspaceRole (store : A) (subject : S) (workspace : W) : Except E (Option WorkspaceRole) :=
  (directMembership store subject workspace).bind fun
  | some role => .ok (some role)
  | none =>
    (groupGrants store subject workspace).bind fun
    | some role => .ok (some role)
    | none => .ok none

def WorkspaceGuard.check (store : A) (subject : S) (permission : P) (workspace : W) (globalPermissions : List String) :
    Except E Bool :=
  let globalPerm := globalPermissions.any (fun p => p == ScopedPermission.name permission)
  if !globalPerm then .ok false
  else
    (resolveWorkspaceRole store subject workspace).bind fun
    | some role => .ok (roleCan role permission)
    | none => .ok false

theorem resolveWorkspaceRole_of_direct {store : A} {subject : S} {workspace : W} {role : WorkspaceRole}
    (h : directMembership store subject workspace = .ok (some role)) :
    resolveWorkspaceRole store subject workspace = .ok (some role) := by
  unfold resolveWorkspaceRole
  rw [h]
  rfl

theorem resolveWorkspaceRole_of_group {store : A} {subject : S} {workspace : W}
    (h : directMembership store subject workspace = .ok none) :
    resolveWorkspaceRole store subject workspace = groupGrants store subject workspace := by
  unfold resolveWorkspaceRole
  rw [h]
  cases groupGrants store subject workspace with
  | error e => rfl
  | ok role => cases role <;> rfl

/-- **A check passes exactly when** the name is held globally and the resolved role allows it. -/
theorem check_eq_true_iff (store : A) (subject : S) (permission : P) (workspace : W) (globals : List String) :
    WorkspaceGuard.check store subject permission workspace globals = .ok true ↔
      ScopedPermission.name permission ∈ globals ∧
        ∃ role, resolveWorkspaceRole store subject workspace = .ok (some role) ∧ roleCan role permission = true := by
  have hany : globals.any (fun p => p == ScopedPermission.name permission) = true ↔
      ScopedPermission.name permission ∈ globals := by simp
  unfold WorkspaceGuard.check
  by_cases hglobal : ScopedPermission.name permission ∈ globals
  · simp only [hany.2 hglobal, Bool.not_true, Bool.false_eq_true, if_false, hglobal, true_and]
    cases resolveWorkspaceRole store subject workspace with
    | error e => simp [Except.bind]
    | ok role => cases role <;> simp [Except.bind]
  · have hfalse : globals.any (fun p => p == ScopedPermission.name permission) = false :=
      Bool.eq_false_iff.2 (mt hany.1 hglobal)
    simp [hfalse, hglobal]

/-- **A role raised keeps what it allowed exactly when** the rise is not from Viewer to Operator on a name that is both
viewable and reserved: of the bare role, and of every check whose subject resolves to the one and then to the other. -/
theorem role_monotone_iff {r r' : WorkspaceRole} (h : r ≤ r') (permission : P) :
    ((roleCan r permission = true → roleCan r' permission = true) ∧
      ∀ (store store' : A) (subject : S) (workspace : W) (globals : List String),
        resolveWorkspaceRole store subject workspace = .ok (some r) →
        resolveWorkspaceRole store' subject workspace = .ok (some r') →
        WorkspaceGuard.check store subject permission workspace globals = .ok true →
        WorkspaceGuard.check store' subject permission workspace globals = .ok true) ↔
      ¬ (r = .viewer ∧ r' = .operator ∧ viewable (ScopedPermission.name permission) = true ∧
        reserved (ScopedPermission.name permission) = true) := by
  rw [← roleCan_lost_iff h permission]
  constructor
  · rintro ⟨hrole, -⟩ ⟨hr, hr'⟩
    rw [hrole hr] at hr'
    cases hr'
  · intro hkept
    have hrole : roleCan r permission = true → roleCan r' permission = true := by
      intro hr
      by_contra hr'
      exact hkept ⟨hr, Bool.eq_false_iff.2 hr'⟩
    refine ⟨hrole, fun store store' subject workspace globals hres hres' hcheck => ?_⟩
    rw [check_eq_true_iff] at hcheck ⊢
    obtain ⟨hglobal, role, hrole', hcan⟩ := hcheck
    obtain rfl : r = role := Option.some.inj (Except.ok.inj (hres.symm.trans hrole'))
    exact ⟨hglobal, r', hres', hrole hcan⟩

end Guard

/-! ## The in-memory store -/

structure InMemoryWorkspaceStore (S W : Type) where
  members : HashMap (S × W) WorkspaceRole
  groupGrants : HashMap (S × W) WorkspaceRole

namespace InMemoryWorkspaceStore

variable {S W : Type}

def new : InMemoryWorkspaceStore S W := ⟨HashMap.empty, HashMap.empty⟩

variable [DecidableEq S] [DecidableEq W]

def addMember (st : InMemoryWorkspaceStore S W) (subject : S) (workspace : W) (role : WorkspaceRole) :
    InMemoryWorkspaceStore S W := { st with members := st.members.insert (subject, workspace) role }

def addGroupGrant (st : InMemoryWorkspaceStore S W) (groupId : S) (workspace : W) (role : WorkspaceRole) :
    InMemoryWorkspaceStore S W := { st with groupGrants := st.groupGrants.insert (groupId, workspace) role }

instance : WorkspaceStore (InMemoryWorkspaceStore S W) S W Empty where
  directMembership st subject workspace := .ok (st.members.get? (subject, workspace))
  groupGrants st subject workspace := .ok (st.groupGrants.get? (subject, workspace))

/-- **A direct row decides**: it replaces the previous one and hides what the groups grant. -/
theorem resolve_addMember (st : InMemoryWorkspaceStore S W) (subject : S) (workspace : W) (role : WorkspaceRole) :
    resolveWorkspaceRole (st.addMember subject workspace role) subject workspace = .ok (some role) :=
  resolveWorkspaceRole_of_direct (congrArg Except.ok (HashMap.get?_insert_self _ _ _))

theorem resolve_addGroupGrant (st : InMemoryWorkspaceStore S W) (subject : S) (workspace : W) (role : WorkspaceRole)
    (h : st.members.get? (subject, workspace) = none) :
    resolveWorkspaceRole (st.addGroupGrant subject workspace role) subject workspace = .ok (some role) := by
  rw [resolveWorkspaceRole_of_group (congrArg Except.ok h)]
  exact congrArg Except.ok (HashMap.get?_insert_self _ _ _)

end InMemoryWorkspaceStore

instance : ScopedPermission String := ⟨id⟩

/-- A member of the workspace, with the given role. -/
def memberStore (role : WorkspaceRole) : InMemoryWorkspaceStore String String :=
  InMemoryWorkspaceStore.new.addMember "alice" "ws-1" role

theorem role_monotone_owner :
    (roleCan .viewer "agent.list" = true → roleCan .owner "agent.list" = true) ∧
      ∀ (store store' : InMemoryWorkspaceStore String String) (subject workspace : String) (globals : List String),
        resolveWorkspaceRole store subject workspace = .ok (some .viewer) →
        resolveWorkspaceRole store' subject workspace = .ok (some .owner) →
        WorkspaceGuard.check store subject "agent.list" workspace globals = .ok true →
        WorkspaceGuard.check store' subject "agent.list" workspace globals = .ok true :=
  (role_monotone_iff (show WorkspaceRole.viewer ≤ .owner by decide) "agent.list").2 (by decide)

/-- **`rbac.list` is allowed to a Viewer and denied to an Operator**, of the bare role and of a member's check. -/
theorem viewer_outranks_operator :
    WorkspaceRole.viewer ≤ .operator ∧
      roleCan .viewer "rbac.list" = true ∧ roleCan .operator "rbac.list" = false ∧
      WorkspaceGuard.check (memberStore .viewer) "alice" "rbac.list" "ws-1" ["rbac.list"] = .ok true ∧
      WorkspaceGuard.check ((memberStore .viewer).addMember "alice" "ws-1" .operator) "alice" "rbac.list" "ws-1"
        ["rbac.list"] = .ok false := by
  refine ⟨by decide, by decide, by decide, ?_, ?_⟩
  · rw [check_eq_true_iff]
    exact ⟨by decide, .viewer, rfl, by decide⟩
  · rfl

end Rbac
end Kirino
