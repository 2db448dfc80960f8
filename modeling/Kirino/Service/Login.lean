import Kirino.Auth.Credential
import Kirino.Lib.Threads
import Kirino.Rbac.Store.Memory
import Kirino.Service.Validation
/-!
# Login — registration, login and password change at the grain of their awaits (`service/login/mod.rs`)

The service keeps the users, their roles, the latch of the first registration and the revocation table of its token
manager.  A step may be refused by what it calls around these (a rate limiter, the database, a store): its input then
carries the error, and the call returns it.  Between two steps of a call the other calls go on.
-/
namespace Kirino
namespace Service

open Auth (JwtCrate JwtManager MemoryRevocationBackend Claims Fault)
open Lib (Machine Pool PoolEvent Program)
open Rbac (InMemoryAssignmentStore)

/-- The service's configuration and libraries. -/
structure AuthService (J : JwtCrate) where
  jwt : JwtManager J
  hasher : PasswordHasher
  classes : CharClasses
  passwordLoginEnabled : Bool
  firstUserRole : String
  defaultRole : String
  autoAdminFirstUser : Bool

/-- What the service's calls share. -/
structure ServiceState (U P : Type) where
  users : UserTable U
  assignments : InMemoryAssignmentStore String P
  hasFirstUser : Bool
  revocation : MemoryRevocationBackend

/-- What a step draws and is given. -/
structure ServiceInput (U : Type) where
  now : Int
  id : U
  salt : String
  jti : String
  permissions : List String
  refused : Option ServiceError

inductive ServiceReply (U : Type) where
  | registered (user : UserRecord U)
  | loggedIn (token : String)
  | changed

abbrev ServiceAnswer (U : Type) := Except ServiceError (ServiceReply U)

/-- A call in flight, named by what it does next. -/
inductive ServiceCall (U : Type) where
  | registerAdmit (username password : String)
  | registerFind (username password : String)
  | registerLatch (username password : String)
  | registerCount (user : UserRecord U)
  | registerCreate (user : UserRecord U) (isFirst : Bool)
  | registerAssign (user : UserRecord U) (isFirst : Bool)
  | loginAdmit (username password : String)
  | loginFind (username password : String)
  | loginVerify (user : UserRecord U) (password : String)
  | loginRoles (user : UserRecord U)
  | loginPermissions (user : UserRecord U) (roles : List String)
  | loginIssue (user : UserRecord U) (roles permissions : List String)
  | changeFind (userId oldPassword newPassword : String)
  | changeVerify (userId : String) (uid : U) (user : UserRecord U) (oldPassword newPassword : String)
  | changeRevoke (userId : String) (uid : U) (newHash : String)
  | changeUpdate (uid : U) (newHash : String)
  | returned
deriving DecidableEq

abbrev ServiceStep (U P : Type) := ServiceState U P × ServiceCall U × Option (ServiceAnswer U)

section Results
variable {U P : Type}

/-- The call goes on. -/
def ServiceState.goOn (w : ServiceState U P) (call : ServiceCall U) : ServiceStep U P := (w, call, none)

/-- The call returns an error. -/
def ServiceState.fail (w : ServiceState U P) (e : ServiceError) : ServiceStep U P := (w, .returned, some (.error e))

/-- The call returns. -/
def ServiceState.reply (w : ServiceState U P) (r : ServiceReply U) : ServiceStep U P := (w, .returned, some (.ok r))

end Results

namespace AuthService

variable {J : JwtCrate} {U P : Type} [UuidText U] [DecidableEq U] (svc : AuthService J) (w : ServiceState U P)
variable (input : ServiceInput U)

/-! ## Registration -/

/-- The validations, and the limiter. -/
def registerAdmitStep (username password : String) : ServiceStep U P :=
  match validateUsername username with
  | .error e => w.fail e
  | .ok username =>
    match validatePassword svc.classes password with
    | .error e => w.fail e
    | .ok () =>
      match input.refused with
      | some e => w.fail e
      | none => w.goOn (.registerFind username password)

def registerFindStep (username password : String) : ServiceStep U P :=
  match input.refused with
  | some e => w.fail e
  | none =>
    match w.users.findByUsername username with
    | some _ => w.fail (.validation "username already exists")
    | none => w.goOn (.registerLatch username password)

/-- The swap of the latch decides whether the users are counted at all. -/
def registerLatchStep (username password : String) : ServiceStep U P :=
  match svc.hasher.hashPassword input.salt password with
  | .error e => w.fail (.other e)
  | .ok passwordHash =>
    let user := ⟨input.id, username, passwordHash, true⟩
    if svc.autoAdminFirstUser then
      if w.hasFirstUser then w.goOn (.registerCreate user false)
      else { w with hasFirstUser := true }.goOn (.registerCount user)
    else w.goOn (.registerCreate user false)

def registerCountStep (user : UserRecord U) : ServiceStep U P :=
  match input.refused with
  | some e => w.fail e
  | none => w.goOn (.registerCreate user (decide (w.users.countUsers = 0)))

def registerCreateStep (user : UserRecord U) (isFirst : Bool) : ServiceStep U P :=
  match input.refused with
  | some e => w.fail e
  | none =>
    match w.users.createUser user with
    | .error e => w.fail e
    | .ok users => { w with users }.goOn (.registerAssign user isFirst)

def roleName (isFirst : Bool) : String := if isFirst then svc.firstUserRole else svc.defaultRole

def registerAssignStep (user : UserRecord U) (isFirst : Bool) : ServiceStep U P :=
  match input.refused with
  | some e => w.fail e
  | none =>
    let assignments := w.assignments.assignRole (toText user.id) (svc.roleName isFirst)
    { w with assignments }.reply (.registered user)

/-! ## Login -/

/-- The policy, and the limiter. -/
def loginAdmitStep (username password : String) : ServiceStep U P :=
  if !svc.passwordLoginEnabled then
    w.fail (.validation "password login is disabled by policy; sign in with a third-party identity provider")
  else
    match input.refused with
    | some e => w.fail e
    | none => w.goOn (.loginFind (trim username) password)

def loginFindStep (username password : String) : ServiceStep U P :=
  match input.refused with
  | some e => w.fail e
  | none =>
    match w.users.findByUsername username with
    | some user => w.goOn (.loginVerify user password)
    | none => w.fail .authenticationFailed

def loginVerifyStep (user : UserRecord U) (password : String) : ServiceStep U P :=
  if !user.isActive then w.fail .authenticationFailed
  else
    match svc.hasher.verifyPassword password user.passwordHash with
    | .error e => w.fail (.other e)
    | .ok false => w.fail .authenticationFailed
    | .ok true => w.goOn (.loginRoles user)

def loginRolesStep (user : UserRecord U) : ServiceStep U P :=
  match input.refused with
  | some _ => w.fail (.authorizationDenied "store unavailable")
  | none => w.goOn (.loginPermissions user (w.assignments.rolesOf (toText user.id)))

/-- The permissions are those that the engine resolves. -/
def loginPermissionsStep (user : UserRecord U) (roles : List String) : ServiceStep U P :=
  match input.refused with
  | some _ => w.fail (.authorizationDenied "store unavailable")
  | none => w.goOn (.loginIssue user roles input.permissions)

def loginRequest (user : UserRecord U) (roles permissions : List String) : JwtManager.IssueRequest :=
  ⟨input.jti, toText user.id, user.username, roles, permissions, none⟩

def loginIssueStep (user : UserRecord U) (roles permissions : List String) : ServiceStep U P :=
  match svc.jwt.issueWithOptions input.now (loginRequest input user roles permissions) with
  | .error (.error text) => w.fail (.other text)
  | .error .panicked => w.fail .panicked
  | .ok token => w.reply (.loggedIn token)

/-! ## Password change -/

def changeFindStep (userId oldPassword newPassword : String) : ServiceStep U P :=
  match (parseStr userId : Option U) with
  | none => w.fail (.validation "invalid user_id")
  | some uid =>
    match input.refused with
    | some e => w.fail e
    | none =>
      match w.users.findById uid with
      | none => w.fail (.notFound "user not found")
      | some user => w.goOn (.changeVerify userId uid user oldPassword newPassword)

def changeVerifyStep (userId : String) (uid : U) (user : UserRecord U) (oldPassword newPassword : String) :
    ServiceStep U P :=
  match svc.hasher.verifyPassword oldPassword user.passwordHash with
  | .error e => w.fail (.other e)
  | .ok false => w.fail .authenticationFailed
  | .ok true =>
    match validatePassword svc.classes newPassword with
    | .error e => w.fail e
    | .ok () =>
      match svc.hasher.hashPassword input.salt newPassword with
      | .error e => w.fail (.other e)
      | .ok newHash => w.goOn (.changeRevoke userId uid newHash)

def changeRevokeStep (userId : String) (uid : U) (newHash : String) : ServiceStep U P :=
  match JwtManager.revokeAllForUser w.revocation input.now userId with
  | (some (), revocation) => { w with revocation }.goOn (.changeUpdate uid newHash)
  | (none, revocation) => { w with revocation }.fail .panicked

def changeUpdateStep (uid : U) (newHash : String) : ServiceStep U P :=
  match input.refused with
  | some e => w.fail e
  | none =>
    match w.users.updatePassword uid newHash with
    | .error e => w.fail e
    | .ok users => { w with users }.reply .changed

/-! ## The service as a machine -/

def next : ServiceCall U → ServiceStep U P
  | .registerAdmit username password => svc.registerAdmitStep w input username password
  | .registerFind username password => registerFindStep w input username password
  | .registerLatch username password => svc.registerLatchStep w input username password
  | .registerCount user => registerCountStep w input user
  | .registerCreate user isFirst => registerCreateStep w input user isFirst
  | .registerAssign user isFirst => svc.registerAssignStep w input user isFirst
  | .loginAdmit username password => svc.loginAdmitStep w input username password
  | .loginFind username password => loginFindStep w input username password
  | .loginVerify user password => svc.loginVerifyStep w user password
  | .loginRoles user => loginRolesStep w input user
  | .loginPermissions user roles => loginPermissionsStep w input user roles
  | .loginIssue user roles permissions => svc.loginIssueStep w input user roles permissions
  | .changeFind userId oldPassword newPassword => changeFindStep w input userId oldPassword newPassword
  | .changeVerify userId uid user oldPassword newPassword =>
    svc.changeVerifyStep w input userId uid user oldPassword newPassword
  | .changeRevoke userId uid newHash => changeRevokeStep w input userId uid newHash
  | .changeUpdate uid newHash => changeUpdateStep w input uid newHash
  | .returned => w.goOn .returned

/-- Beside the calls in flight, nothing changes what they share. -/
def program : Program (ServiceState U P) (ServiceCall U) (ServiceInput U) Empty (Option (ServiceAnswer U)) where
  next _ input w call := svc.next w input call
  env e _ := nomatch e
  idle := none

def machine : Machine (Pool (ServiceState U P) (ServiceCall U)) (PoolEvent (ServiceCall U) (ServiceInput U) Empty)
    (Option (ServiceAnswer U)) := svc.program.machine

omit [UuidText U] [DecidableEq U] in
def verifyToken (now : Int) (token : String) : Except Fault Claims :=
  svc.jwt.verifyWithRevocation w.revocation now token

end AuthService

abbrev ServicePool (U P : Type) := Pool (ServiceState U P) (ServiceCall U)

abbrev ServiceEvent (U : Type) := PoolEvent (ServiceCall U) (ServiceInput U) Empty

namespace AuthService

variable {J : JwtCrate} {U P : Type} [UuidText U] [DecidableEq U] (svc : AuthService J) {p : ServicePool U P} {i : Nat}

theorem machine_step {call : ServiceCall U} (hcall : p.threads[i]? = some call) (input : ServiceInput U) :
    svc.machine.step p (.step i input) =
        ⟨(svc.next p.shared input call).1, p.threads.set i (svc.next p.shared input call).2.1⟩ ∧
      svc.machine.out p (.step i input) = (svc.next p.shared input call).2.2 :=
  svc.program.machine_step hcall input

theorem machine_step_none (hcall : p.threads[i]? = none) (input : ServiceInput U) :
    svc.machine.step p (.step i input) = p ∧ svc.machine.out p (.step i input) = none :=
  svc.program.machine_step_none hcall input

end AuthService

end Service
end Kirino
