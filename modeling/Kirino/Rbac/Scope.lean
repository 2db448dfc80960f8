import Kirino.Lib.HashMap
import Kirino.Rbac.Traits
/-!
# Scope — grants with a scope and their resolver (`rbac/scope.rs`, `rbac/traits.rs`)

A grant holds one permission at one scope and is attached to a user or to a group.  The resolver decides in order: a
stale session, the administrator, the deny set, the role's defaults, and last the applicable grants, of which the most
specific one labels the decision.
-/
namespace Kirino
namespace Rbac

open Lib (HashMap)

/-! ## The context and the decision -/

/-- A permission that may be a branch, which other permissions list among their ancestors. -/
class PermissionTree (P : Type) extends Permission P where
  isBranch : P → Bool := fun _ => false
  ancestryNames : P → List String := fun p => [name p]

export PermissionTree (isBranch ancestryNames)

/-- An identifier of the `uuid` library, with the text its debug form prints. -/
class UuidDebug (U : Type) where
  debug : U → String

inductive SystemRole where
  | admin
  | operator
  | member
  | viewer
deriving DecidableEq, Repr

def SystemRole.asStr : SystemRole → String
  | .admin => "admin"
  | .operator => "operator"
  | .member => "member"
  | .viewer => "viewer"

structure PermissionContext (U : Type) where
  userId : U
  systemRole : SystemRole
  groupIds : List U
  workspaceId : Option U
  sessionVersion : Nat
  currentUserVersion : Nat

def PermissionContext.isSessionStale {U : Type} (ctx : PermissionContext U) : Bool :=
  decide (ctx.sessionVersion < ctx.currentUserVersion)

inductive GrantSource where
  | roleDefault
  | globalGrant
  | groupGrant
  | userGrant
  | workspaceRole
  | workspaceGrant
  | adminBypass
deriving DecidableEq, Repr

inductive PermissionDecision where
  | granted (reason : String) (source : GrantSource)
  | denied (reason : String) (source : Option GrantSource)
deriving DecidableEq, Repr

/-- Whether it grants, and the source it reports: the decision without its text. -/
def PermissionDecision.outcome : PermissionDecision → Bool × Option GrantSource
  | .granted _ source => (true, some source)
  | .denied _ source => (false, source)

def PermissionDecision.isGranted (decision : PermissionDecision) : Bool := decision.outcome.1

/-! ## Grants -/

inductive GrantScope (U : Type) where
  | global
  | group (g : U)
  | workspace (w : U)
deriving DecidableEq, Repr

namespace GrantScope

variable {U : Type}

def specificity : GrantScope U → Nat
  | .global => 0
  | .group _ => 1
  | .workspace _ => 2

def appliesTo [DecidableEq U] (scope : GrantScope U) (ctx : PermissionContext U) : Bool :=
  match scope with
  | .global => true
  | .group g => ctx.groupIds.contains g
  | .workspace w => decide (ctx.workspaceId = some w)

def debug [UuidDebug U] : GrantScope U → String
  | .global => "Global"
  | .group g => "Group(" ++ UuidDebug.debug g ++ ")"
  | .workspace w => "Workspace(" ++ UuidDebug.debug w ++ ")"

end GrantScope

structure ScopedGrant (U P : Type) where
  permission : P
  scope : GrantScope U

def grantMatches {P : Type} [PermissionTree P] (grant requested : P) : Bool :=
  name grant == name requested || (isBranch grant && (ancestryNames requested).contains (name grant))

inductive Attachment where
  | user
  | group
deriving DecidableEq, Repr

def grantSource {U : Type} (attachment : Attachment) (scope : GrantScope U) : GrantSource :=
  match scope with
  | .workspace _ => .workspaceGrant
  | _ =>
    match attachment with
    | .user => .userGrant
    | .group => .groupGrant

/-- A store of scoped grants: three fallible queries. -/
class ScopedGrantStore (A : Type) (U P E : outParam Type) where
  userGrants : A → U → Except E (List (ScopedGrant U P))
  groupGrants : A → U → Except E (List (ScopedGrant U P))
  denied : A → U → Except E (Finset P)

/-! ## The resolver -/

abbrev Candidate (U P : Type) := Attachment × ScopedGrant U P

section Resolver
variable {A U P E : Type} [DecidableEq U] [UuidDebug U] [PermissionTree P] [ScopedGrantStore A U P E]

/-- Some permission of the set matches the request. -/
def anyMatches (perms : Finset P) (permission : P) : Bool := decide (∃ p ∈ perms, grantMatches p permission = true)

def roleDefaultMatches (roles : RoleRegistry P) (ctx : PermissionContext U) (permission : P) : Bool :=
  match roles.getRolePermissions ctx.systemRole.asStr with
  | some perms => anyMatches perms permission
  | none => false

/-- The rows of the groups, one query after another. -/
def groupCandidates (store : A) : List U → Except E (List (Candidate U P))
  | [] => .ok []
  | group :: groups =>
    (ScopedGrantStore.groupGrants store group).bind fun grants =>
    (groupCandidates store groups).bind fun candidates =>
    .ok (grants.map (Prod.mk .group) ++ candidates)

/-- One candidate against the best so far: it takes its place when it applies, matches and is more specific. -/
def selectStep (ctx : PermissionContext U) (permission : P) (best : Option (Candidate U P)) (candidate : Candidate U P) :
    Option (Candidate U P) :=
  if candidate.2.scope.appliesTo ctx && grantMatches candidate.2.permission permission then
    let moreSpecific := best.all (fun b => decide (candidate.2.scope.specificity > b.2.scope.specificity))
    if moreSpecific then some candidate else best
  else best

def bestCandidate (ctx : PermissionContext U) (permission : P) (candidates : List (Candidate U P)) :
    Option (Candidate U P) := candidates.foldl (selectStep ctx permission) none

/-- The decision over the scoped grants, when nothing before them decided. -/
def scopedDecision (best : Option (Candidate U P)) : PermissionDecision :=
  match best with
  | some (attachment, grant) =>
    .granted ("scoped grant (" ++ grant.scope.debug ++ ")") (grantSource attachment grant.scope)
  | none => .denied "no matching grant at any applicable scope" none

/-- What is decided before any grant is read, from the deny set. -/
def decidedBefore (roles : RoleRegistry P) (ctx : PermissionContext U) (permission : P) (denied : Finset P) :
    Option PermissionDecision :=
  if anyMatches denied permission then some (.denied "denied by explicit deny set" none)
  else if roleDefaultMatches roles ctx permission then
    some (.granted ("role default for " ++ ctx.systemRole.asStr) .roleDefault)
  else none

/-- The resolution once the deny set is read. -/
def resolveAfterDenied (store : A) (roles : RoleRegistry P) (ctx : PermissionContext U) (permission : P)
    (denied : Finset P) : Except E PermissionDecision :=
  match decidedBefore roles ctx permission denied with
  | some decision => .ok decision
  | none =>
    (ScopedGrantStore.userGrants store ctx.userId).bind fun grants =>
    (groupCandidates store ctx.groupIds).bind fun groups =>
    .ok (scopedDecision (bestCandidate ctx permission (grants.map (Prod.mk .user) ++ groups)))

def resolve (store : A) (roles : RoleRegistry P) (ctx : PermissionContext U) (permission : P)
    (_resourceId : Option String) : Except E PermissionDecision :=
  if ctx.isSessionStale then .ok (.denied "session version is stale — re-authentication required" none)
  else if ctx.systemRole = .admin then .ok (.granted "system administrator" .adminBypass)
  else (ScopedGrantStore.denied store ctx.userId).bind (resolveAfterDenied store roles ctx permission)

end Resolver

/-! ## The in-memory store -/

structure MemoryScopedGrantStore (U P : Type) where
  user : HashMap U (List (ScopedGrant U P))
  group : HashMap U (List (ScopedGrant U P))
  denies : HashMap U (Finset P)

namespace MemoryScopedGrantStore

variable {U P : Type} [DecidableEq U]

def grantUser (st : MemoryScopedGrantStore U P) (user : U) (grant : ScopedGrant U P) : MemoryScopedGrantStore U P :=
  { st with user := st.user.insert user ((st.user.get? user).getD [] ++ [grant]) }

def grantGroup (st : MemoryScopedGrantStore U P) (group : U) (grant : ScopedGrant U P) : MemoryScopedGrantStore U P :=
  { st with group := st.group.insert group ((st.group.get? group).getD [] ++ [grant]) }

def deny [DecidableEq P] (st : MemoryScopedGrantStore U P) (user : U) (permission : P) : MemoryScopedGrantStore U P :=
  { st with denies := st.denies.insert user (insert permission ((st.denies.get? user).getD ∅)) }

instance : ScopedGrantStore (MemoryScopedGrantStore U P) U P Empty where
  userGrants st u := .ok ((st.user.get? u).getD [])
  groupGrants st g := .ok ((st.group.get? g).getD [])
  denied st u := .ok ((st.denies.get? u).getD ∅)

end MemoryScopedGrantStore

end Rbac
end Kirino
