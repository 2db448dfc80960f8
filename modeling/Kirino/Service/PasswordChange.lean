import Kirino.Auth.RevocationLife
import Kirino.Service.Login
/-!
# PasswordChange — the sessions of the old password (`service/login/mod.rs`, `auth/credential/basic.rs`)

A password change revokes the user's tokens up to the instant after its clock reading, and writes the new hash in a later
step.  A login reads the user, verifies the password and issues its token in steps of its own.  A login that reads the
user after the write does not verify the old password; one that reads before has its token refused as long as it issues
no later than the revoked instant (`OldLoginsInTime`).
-/
namespace Kirino
namespace Service

open Auth (JwtCrate JwtManager MemoryRevocationBackend Claims)
open Lib (HashMap Pool PoolEvent PoolInv)
open Lib.Program (spawned spawned_append getElem?_spawned_append spawned_of_take stepsAt_concat stepsAt_last)

section Definitions
variable {J : JwtCrate} {U P : Type} [UuidText U] [DecidableEq U] (svc : AuthService J) (p₀ : ServicePool U P)
variable (es : List (ServiceEvent U))

/-- The calls made are logins and, at place `c`, one password change. -/
def ChangeAndLogins (c : Nat) (userId old new : String) : Prop :=
  ∀ (i : Nat) call, (spawned es)[i]? = some call →
    i = c ∧ call = .changeFind userId old new ∨ ∃ username password, call = .loginAdmit username password

/-- The change has returned `Ok`. -/
def HasChanged (c : Nat) : Prop :=
  ∃ k input, es[k]? = some (.step c input) ∧
    svc.machine.out (svc.machine.run p₀ (es.take k)) (.step c input) = some (.ok .changed)

/-- A login of the user with the password has got the token. -/
def ObtainedWith (uid : U) (password token : String) : Prop :=
  ∃ (i j : Nat) (username : String) (input : ServiceInput U) (user : UserRecord U) (roles permissions : List String),
    (spawned es)[i]? = some (.loginAdmit username password) ∧
    svc.program.StepsAt p₀ es j i input (.loginIssue user roles permissions) ∧ user.id = uid ∧
    svc.machine.out (svc.machine.run p₀ (es.take j)) (.step i input) = some (.ok (.loggedIn token))

/-- **The old password's sessions are cut off**: once the change has returned `Ok`, no token got with the old password
is accepted. -/
def CutsOff (c : Nat) (uid : U) (old : String) : Prop :=
  HasChanged svc p₀ es c → ∀ token, ObtainedWith svc p₀ es uid old token → ∀ now claims,
    svc.verifyToken (svc.machine.run p₀ es).shared now token ≠ .ok claims

/-- The event comes no later than the update of the change. -/
def BeforeUpdate (c : Nat) (uid : U) (f : Nat) : Prop :=
  ∀ k input newHash, svc.program.StepsAt p₀ es k c input (.changeUpdate uid newHash) → f ≤ k

/-- A login of the user with the old password issues no later than the instant the change revokes up to, when it reads
the user before the update, or the new password is the old one. -/
def OldLoginsInTime (c : Nat) (uid : U) (old new : String) : Prop :=
  ∀ (r i f j : Nat) (revokeInput readInput issueInput : ServiceInput U) (userId newHash username : String)
    (user : UserRecord U) (roles permissions : List String),
    svc.program.StepsAt p₀ es r c revokeInput (.changeRevoke userId uid newHash) →
    svc.program.StepsAt p₀ es f i readInput (.loginFind username old) →
    svc.program.StepsAt p₀ es j i issueInput (.loginIssue user roles permissions) → user.id = uid →
    BeforeUpdate svc p₀ es c uid f ∨ old = new → issueInput.now ≤ revokeInput.now + 1

end Definitions

/-! ## One step of a login, and of a change -/

section Effect
variable {J : JwtCrate} {U P : Type} [UuidText U] [DecidableEq U]

/-- The call is one of a login or a password change. -/
def ServiceCall.LogsInOrChanges : ServiceCall U → Prop
  | .registerAdmit _ _ => False
  | .registerFind _ _ => False
  | .registerLatch _ _ => False
  | .registerCount _ => False
  | .registerCreate _ _ => False
  | .registerAssign _ _ => False
  | _ => True

/-- What a step of a login or a change does.  The revocation and the update are the only ones that write. -/
inductive LoginEffect (svc : AuthService J) (input : ServiceInput U) (w : ServiceState U P) (call : ServiceCall U) :
    ServiceStep U P → Prop where
  | ends (answer : Option (ServiceAnswer U)) (hanswer : ∀ reply, answer ≠ some (.ok reply)) :
    LoginEffect svc input w call (w, .returned, answer)
  | admitted (username password : String) (hcall : call = .loginAdmit username password) :
    LoginEffect svc input w call (w, .loginFind (trim username) password, none)
  | read (username password : String) (user : UserRecord U) (hcall : call = .loginFind username password)
      (huser : w.users.findByUsername username = some user) :
    LoginEffect svc input w call (w, .loginVerify user password, none)
  | verified (user : UserRecord U) (password : String) (hcall : call = .loginVerify user password)
      (hpassword : svc.hasher.verifyPassword password user.passwordHash = .ok true) :
    LoginEffect svc input w call (w, .loginRoles user, none)
  | roles (user : UserRecord U) (names : List String) (hcall : call = .loginRoles user) :
    LoginEffect svc input w call (w, .loginPermissions user names, none)
  | permissions (user : UserRecord U) (names permissions : List String) (hcall : call = .loginPermissions user names) :
    LoginEffect svc input w call (w, .loginIssue user names permissions, none)
  | issued (user : UserRecord U) (names permissions : List String) (token : String)
      (hcall : call = .loginIssue user names permissions)
      (htoken : svc.jwt.issueWithOptions input.now (AuthService.loginRequest input user names permissions) = .ok token) :
    LoginEffect svc input w call (w, .returned, some (.ok (.loggedIn token)))
  | changeRead (userId : String) (uid : U) (user : UserRecord U) (old new : String)
      (hcall : call = .changeFind userId old new) (huid : parseStr userId = some uid) :
    LoginEffect svc input w call (w, .changeVerify userId uid user old new, none)
  | changeVerified (userId : String) (uid : U) (user : UserRecord U) (old new newHash : String)
      (hcall : call = .changeVerify userId uid user old new)
      (hhash : svc.hasher.hashPassword input.salt new = .ok newHash) :
    LoginEffect svc input w call (w, .changeRevoke userId uid newHash, none)
  | revoked (userId : String) (uid : U) (newHash : String) (revocation : MemoryRevocationBackend)
      (hcall : call = .changeRevoke userId uid newHash)
      (hrevoke : JwtManager.revokeAllForUser w.revocation input.now userId = (some (), revocation)) :
    LoginEffect svc input w call ({ w with revocation }, .changeUpdate uid newHash, none)
  | revokePanicked (userId : String) (uid : U) (newHash : String) (revocation : MemoryRevocationBackend)
      (hcall : call = .changeRevoke userId uid newHash) :
    LoginEffect svc input w call ({ w with revocation }, .returned, some (.error .panicked))
  | updated (uid : U) (newHash : String) (users : UserTable U) (hcall : call = .changeUpdate uid newHash)
      (hupdate : w.users.updatePassword uid newHash = .ok users) :
    LoginEffect svc input w call ({ w with users }, .returned, some (.ok .changed))

/-- **Every step of a login or a change has one of these effects.** -/
theorem login_effect (svc : AuthService J) (input : ServiceInput U) (w : ServiceState U P) {call : ServiceCall U}
    (hcall : call.LogsInOrChanges) : LoginEffect svc input w call (svc.next w input call) := by
  cases call with
  | loginAdmit username password =>
    unfold AuthService.next AuthService.loginAdmitStep
    dsimp only
    split
    · exact .ends _ nofun
    · split
      · exact .ends _ nofun
      · exact .admitted username password rfl
  | loginFind username password =>
    unfold AuthService.next AuthService.loginFindStep
    dsimp only
    split
    · exact .ends _ nofun
    · split
      · rename_i user huser
        exact .read username password user rfl huser
      · exact .ends _ nofun
  | loginVerify user password =>
    unfold AuthService.next AuthService.loginVerifyStep
    dsimp only
    split
    · exact .ends _ nofun
    · split
      · exact .ends _ nofun
      · exact .ends _ nofun
      · rename_i hpassword
        exact .verified user password rfl hpassword
  | loginRoles user =>
    unfold AuthService.next AuthService.loginRolesStep
    dsimp only
    split
    · exact .ends _ nofun
    · exact .roles user _ rfl
  | loginPermissions user names =>
    unfold AuthService.next AuthService.loginPermissionsStep
    dsimp only
    split
    · exact .ends _ nofun
    · exact .permissions user names _ rfl
  | loginIssue user names permissions =>
    unfold AuthService.next AuthService.loginIssueStep
    dsimp only
    split
    · exact .ends _ nofun
    · exact .ends _ nofun
    · rename_i token htoken
      exact .issued user names permissions token rfl htoken
  | changeFind userId old new =>
    unfold AuthService.next AuthService.changeFindStep
    dsimp only
    split
    · exact .ends _ nofun
    · rename_i uid huid
      split
      · exact .ends _ nofun
      · split
        · exact .ends _ nofun
        · exact .changeRead userId uid _ old new rfl huid
  | changeVerify userId uid user old new =>
    unfold AuthService.next AuthService.changeVerifyStep
    dsimp only
    split
    · exact .ends _ nofun
    · exact .ends _ nofun
    · split
      · exact .ends _ nofun
      · split
        · exact .ends _ nofun
        · rename_i newHash hhash
          exact .changeVerified userId uid user old new newHash rfl hhash
  | changeRevoke userId uid newHash =>
    unfold AuthService.next AuthService.changeRevokeStep
    dsimp only
    split
    · rename_i revocation hrevoke
      exact .revoked userId uid newHash revocation rfl hrevoke
    · exact .revokePanicked userId uid newHash _ rfl
  | changeUpdate uid newHash =>
    unfold AuthService.next AuthService.changeUpdateStep
    dsimp only
    split
    · exact .ends _ nofun
    · split
      · exact .ends _ nofun
      · rename_i users hupdate
        exact .updated uid newHash users rfl hupdate
  | returned => exact .ends _ nofun
  | _ => exact hcall.elim

end Effect

/-! ## What a call knows -/

section Facts
variable {J : JwtCrate} {U P : Type} [UuidText U] [DecidableEq U] (svc : AuthService J) (p₀ : ServicePool U P)
variable (c : Nat) (uid : U) (new : String) (es : List (ServiceEvent U))

/-- Call `i` is a login with the password, and it has read the user. -/
def HasRead (i : Nat) (user : UserRecord U) (password : String) : Prop :=
  ∃ (f : Nat) (input : ServiceInput U) (name username : String),
    (spawned es)[i]? = some (.loginAdmit name password) ∧
    svc.program.StepsAt p₀ es f i input (.loginFind username password) ∧
    (svc.machine.run p₀ (es.take f)).shared.users.findByUsername username = some user

/-- And the password is the one of the hash it has read. -/
def HasVerified (i : Nat) (user : UserRecord U) : Prop :=
  ∃ password, HasRead svc p₀ es i user password ∧ svc.hasher.verifyPassword password user.passwordHash = .ok true

/-- The change has not come to its update. -/
def NotUpdated : Prop :=
  ∀ k input newHash, ¬ svc.program.StepsAt p₀ es k c input (.changeUpdate uid newHash)

/-- The user's tokens are revoked up to the instant after the clock reading of the change's revocation. -/
def HasRevoked (w : ServiceState U P) : Prop :=
  ∃ (r : Nat) (input : ServiceInput U) (newHash : String),
    svc.program.StepsAt p₀ es r c input (.changeRevoke (toText uid) uid newHash) ∧
    w.revocation.map.RecordedFrom (toText uid) (input.now + 1)

/-- The hash is one of the new password. -/
def IsNewHash (newHash : String) : Prop := ∃ salt, svc.hasher.hashPassword salt new = .ok newHash

/-- What holds of a call at its place. -/
def ChangeFacts (i : Nat) (w : ServiceState U P) : ServiceCall U → Prop
  | .loginAdmit username password => (spawned es)[i]? = some (.loginAdmit username password)
  | .loginFind _ password => ∃ name, (spawned es)[i]? = some (.loginAdmit name password)
  | .loginVerify user password => HasRead svc p₀ es i user password
  | .loginRoles user => HasVerified svc p₀ es i user
  | .loginPermissions user _ => HasVerified svc p₀ es i user
  | .loginIssue user _ _ => HasVerified svc p₀ es i user
  | .changeFind userId _ new' => i = c ∧ userId = toText uid ∧ new' = new ∧ NotUpdated svc p₀ c uid es
  | .changeVerify userId uid' _ _ new' =>
    i = c ∧ userId = toText uid ∧ uid' = uid ∧ new' = new ∧ NotUpdated svc p₀ c uid es
  | .changeRevoke userId uid' newHash =>
    i = c ∧ userId = toText uid ∧ uid' = uid ∧ IsNewHash svc new newHash ∧ NotUpdated svc p₀ c uid es
  | .changeUpdate uid' newHash =>
    i = c ∧ uid' = uid ∧ IsNewHash svc new newHash ∧ NotUpdated svc p₀ c uid es ∧ HasRevoked svc p₀ c uid es w
  | .returned => True
  | _ => False

/-- Once the change has returned `Ok`, the tokens are revoked and the hash is the new one. -/
def ChangedFacts (w : ServiceState U P) : Prop :=
  HasChanged svc p₀ es c → ¬ NotUpdated svc p₀ c uid es ∧ HasRevoked svc p₀ c uid es w ∧
    ∃ newHash, IsNewHash svc new newHash ∧ ∀ user, w.users.findById uid = some user → user.passwordHash = newHash

end Facts

/-! ## What the events keep -/

section Keep
variable {J : JwtCrate} {U P : Type} [UuidText U] [DecidableEq U] {svc : AuthService J} {p₀ : ServicePool U P}
variable {c : Nat} {uid : U} {new : String} {es : List (ServiceEvent U)}

theorem HasRead.append {i : Nat} {user : UserRecord U} {password : String} (h : HasRead svc p₀ es i user password)
    (fs : List (ServiceEvent U)) : HasRead svc p₀ (es ++ fs) i user password := by
  obtain ⟨f, input, name, username, hstart, hstep, huser⟩ := h
  refine ⟨f, input, name, username, getElem?_spawned_append hstart fs, hstep.append fs, ?_⟩
  rw [List.take_append_of_le_length (Nat.le_of_lt hstep.lt_length)]
  exact huser

theorem HasVerified.append {i : Nat} {user : UserRecord U} (h : HasVerified svc p₀ es i user)
    (fs : List (ServiceEvent U)) : HasVerified svc p₀ (es ++ fs) i user := by
  obtain ⟨password, hread, hpassword⟩ := h
  exact ⟨password, hread.append fs, hpassword⟩

theorem NotUpdated.concat (h : NotUpdated svc p₀ c uid es) {e : ServiceEvent U}
    (he : ∀ input newHash, e = .step c input →
      (svc.machine.run p₀ es).threads[c]? ≠ some (.changeUpdate uid newHash)) :
    NotUpdated svc p₀ c uid (es ++ [e]) := by
  intro k input newHash hstep
  rcases stepsAt_concat hstep with hold | ⟨-, hevent, hplace⟩
  · exact h k input newHash hold
  · exact he input newHash hevent hplace

theorem not_notUpdated_append (h : ¬ NotUpdated svc p₀ c uid es) (fs : List (ServiceEvent U)) :
    ¬ NotUpdated svc p₀ c uid (es ++ fs) :=
  fun hnot => h (fun k input newHash hstep => hnot k input newHash (hstep.append fs))

theorem HasRevoked.append {w w' : ServiceState U P} (h : HasRevoked svc p₀ c uid es w)
    (hw : w'.revocation = w.revocation) (fs : List (ServiceEvent U)) : HasRevoked svc p₀ c uid (es ++ fs) w' := by
  obtain ⟨r, input, newHash, hstep, hrecorded⟩ := h
  exact ⟨r, input, newHash, hstep.append fs, hw ▸ hrecorded⟩

theorem ChangeFacts.keep {i : Nat} {w w' : ServiceState U P} {call : ServiceCall U}
    (h : ChangeFacts svc p₀ c uid new es i w call) {e : ServiceEvent U}
    (hnot : i = c → NotUpdated svc p₀ c uid es → NotUpdated svc p₀ c uid (es ++ [e]))
    (hw : i = c → w'.revocation = w.revocation) : ChangeFacts svc p₀ c uid new (es ++ [e]) i w' call := by
  cases call with
  | loginAdmit username password => exact getElem?_spawned_append h [e]
  | loginFind username password =>
    obtain ⟨name, hstart⟩ := h
    exact ⟨name, getElem?_spawned_append hstart [e]⟩
  | loginVerify user password => exact HasRead.append h [e]
  | loginRoles user => exact HasVerified.append h [e]
  | loginPermissions user roles => exact HasVerified.append h [e]
  | loginIssue user roles permissions => exact HasVerified.append h [e]
  | changeFind userId old new' =>
    obtain ⟨hi, huserId, hnew, hbefore⟩ := h
    exact ⟨hi, huserId, hnew, hnot hi hbefore⟩
  | changeVerify userId uid' user old new' =>
    obtain ⟨hi, huserId, huid, hnew, hbefore⟩ := h
    exact ⟨hi, huserId, huid, hnew, hnot hi hbefore⟩
  | changeRevoke userId uid' newHash =>
    obtain ⟨hi, huserId, huid, hhash, hbefore⟩ := h
    exact ⟨hi, huserId, huid, hhash, hnot hi hbefore⟩
  | changeUpdate uid' newHash =>
    obtain ⟨hi, huid, hhash, hbefore, hrevoked⟩ := h
    exact ⟨hi, huid, hhash, hnot hi hbefore, hrevoked.append (hw hi) [e]⟩
  | returned => trivial
  | _ => exact h.elim

theorem hasChanged_concat {e : ServiceEvent U} (h : HasChanged svc p₀ (es ++ [e]) c) :
    HasChanged svc p₀ es c ∨ svc.machine.out (svc.machine.run p₀ es) e = some (.ok .changed) := by
  obtain ⟨k, input, hevent, hchanged⟩ := h
  rcases Lib.getElem?_concat hevent with hold | ⟨rfl, rfl⟩
  · rw [List.take_append_of_le_length (Nat.le_of_lt (List.getElem?_eq_some_iff.1 hold).1)] at hchanged
    exact Or.inl ⟨k, input, hold, hchanged⟩
  · rw [List.take_left] at hchanged
    exact Or.inr hchanged

theorem ChangedFacts.keep {w : ServiceState U P} (h : ChangedFacts svc p₀ c uid new es w) {e : ServiceEvent U}
    (hout : svc.machine.out (svc.machine.run p₀ es) e ≠ some (.ok .changed)) :
    ChangedFacts svc p₀ c uid new (es ++ [e]) w := by
  intro hchanged
  rcases hasChanged_concat hchanged with hold | hnow
  · obtain ⟨hupdated, hrevoked, hhash⟩ := h hold
    exact ⟨not_notUpdated_append hupdated [e], hrevoked.append rfl [e], hhash⟩
  · exact absurd hnow hout

end Keep

/-! ## One event -/

section Step
variable {J : JwtCrate} {U P : Type} [UuidText U] [DecidableEq U] {svc : AuthService J} {p₀ : ServicePool U P}
variable {c : Nat} {uid : U} {new : String} {es : List (ServiceEvent U)} {i : Nat} {w : ServiceState U P}
variable {call : ServiceCall U}

theorem ChangeFacts.logsInOrChanges (h : ChangeFacts svc p₀ c uid new es i w call) : call.LogsInOrChanges := by
  cases call <;> trivial

theorem ChangeFacts.next_shared (h : ChangeFacts svc p₀ c uid new es i w call) (input : ServiceInput U) (hi : i ≠ c) :
    (svc.next w input call).1 = w := by
  have heffect := login_effect svc input w h.logsInOrChanges
  generalize svc.next w input call = result at heffect
  cases heffect with
  | revoked userId uid' newHash revocation hcall =>
    subst hcall
    exact absurd h.1 hi
  | revokePanicked userId uid' newHash revocation hcall =>
    subst hcall
    exact absurd h.1 hi
  | updated uid' newHash users hcall =>
    subst hcall
    exact absurd h.1 hi
  | _ => rfl

/-- **A call's own step establishes what its next place asks for.** -/
theorem ChangeFacts.next (input : ServiceInput U) (hcall : (svc.machine.run p₀ es).threads[i]? = some call)
    (h : ChangeFacts svc p₀ c uid new es i (svc.machine.run p₀ es).shared call) :
    ChangeFacts svc p₀ c uid new (es ++ [.step i input]) i (svc.next (svc.machine.run p₀ es).shared input call).1
      (svc.next (svc.machine.run p₀ es).shared input call).2.1 := by
  have hlast : svc.program.StepsAt p₀ (es ++ [.step i input]) es.length i input call := stepsAt_last hcall input
  have hnot : (∀ newHash, call ≠ .changeUpdate uid newHash) → NotUpdated svc p₀ c uid es →
      NotUpdated svc p₀ c uid (es ++ [.step i input]) := by
    intro hplace hbefore
    refine hbefore.concat (fun input' newHash hevent hupdate => ?_)
    obtain ⟨rfl, -⟩ := PoolEvent.step.inj hevent
    exact hplace newHash (Option.some.inj (hcall.symm.trans hupdate))
  have heffect := login_effect svc input (svc.machine.run p₀ es).shared h.logsInOrChanges
  generalize svc.next (svc.machine.run p₀ es).shared input call = result at heffect
  cases heffect with
  | ends => trivial
  | issued => trivial
  | revokePanicked => trivial
  | updated => trivial
  | admitted username password hadmit =>
    subst hadmit
    exact ⟨username, getElem?_spawned_append h _⟩
  | read username password user hfind huser =>
    subst hfind
    obtain ⟨name, hstart⟩ := h
    refine ⟨es.length, input, name, username, getElem?_spawned_append hstart _, hlast, ?_⟩
    rw [List.take_left]
    exact huser
  | verified user password hverify hpassword =>
    subst hverify
    exact ⟨password, HasRead.append h _, hpassword⟩
  | roles user names hroles =>
    subst hroles
    exact HasVerified.append h _
  | permissions user names permissions hpermissions =>
    subst hpermissions
    exact HasVerified.append h _
  | changeRead userId uid' user old new' hfind huid =>
    subst hfind
    obtain ⟨hi, rfl, hnew, hbefore⟩ := h
    rw [UuidText.parse_toText] at huid
    exact ⟨hi, rfl, (Option.some.inj huid).symm, hnew, hnot nofun hbefore⟩
  | changeVerified userId uid' user old new' newHash hverify hhash =>
    subst hverify
    obtain ⟨hi, huserId, huid, rfl, hbefore⟩ := h
    exact ⟨hi, huserId, huid, ⟨_, hhash⟩, hnot nofun hbefore⟩
  | revoked userId uid' newHash revocation hplace hrevoke =>
    subst hplace
    obtain ⟨rfl, rfl, rfl, hhash, hbefore⟩ := h
    refine ⟨rfl, rfl, hhash, hnot nofun hbefore, es.length, input, newHash, hlast, ?_⟩
    obtain rfl : (JwtManager.revokeAllForUser (svc.machine.run p₀ es).shared.revocation input.now (toText uid')).2 =
      revocation := congrArg Prod.snd hrevoke
    obtain ⟨x, hx, rfl⟩ := (svc.machine.run p₀ es).shared.revocation.recorded_revoke (UuidText.toText uid') (input.now + 1)
    exact ⟨_, hx, Int.le_refl _⟩

/-- **A call's own step keeps what holds after the change.** -/
theorem ChangedFacts.next (input : ServiceInput U) (hcall : (svc.machine.run p₀ es).threads[i]? = some call)
    (hw : ChangedFacts svc p₀ c uid new es (svc.machine.run p₀ es).shared)
    (h : ChangeFacts svc p₀ c uid new es i (svc.machine.run p₀ es).shared call) :
    ChangedFacts svc p₀ c uid new (es ++ [.step i input]) (svc.next (svc.machine.run p₀ es).shared input call).1 := by
  have hout := (svc.machine_step hcall input).2
  have hlast : svc.program.StepsAt p₀ (es ++ [.step i input]) es.length i input call := stepsAt_last hcall input
  have heffect := login_effect svc input (svc.machine.run p₀ es).shared h.logsInOrChanges
  generalize svc.next (svc.machine.run p₀ es).shared input call = result at heffect hout
  cases heffect with
  | ends answer hanswer => exact hw.keep (fun hchanged => hanswer _ (hout.symm.trans hchanged))
  | issued => exact hw.keep (by rw [hout]; nofun)
  | revoked userId uid' newHash revocation hplace =>
    subst hplace
    intro hchanged
    rcases hasChanged_concat hchanged with hold | hnow
    · exact absurd h.2.2.2.2 (hw hold).1
    · cases hout.symm.trans hnow
  | revokePanicked userId uid' newHash revocation hplace =>
    subst hplace
    intro hchanged
    rcases hasChanged_concat hchanged with hold | hnow
    · exact absurd h.2.2.2.2 (hw hold).1
    · cases hout.symm.trans hnow
  | updated uid' newHash users hplace hupdate =>
    subst hplace
    obtain ⟨rfl, rfl, hhash, hbefore, hrevoked⟩ := h
    intro _
    refine ⟨fun hnot => hnot _ _ _ hlast, hrevoked.append rfl _, newHash, hhash, fun user huser => ?_⟩
    dsimp only at huser
    rw [UserTable.findById_updatePassword hupdate, if_pos rfl] at huser
    obtain ⟨user', -, rfl⟩ := Option.map_eq_some_iff.1 huser
    rfl
  | _ => exact hw.keep (by rw [hout]; nofun)

end Step

/-! ## Every run -/

section Runs
variable {J : JwtCrate} {U P : Type} [UuidText U] [DecidableEq U] {svc : AuthService J} {w : ServiceState U P}
variable {c : Nat} {uid : U} {old new : String} {es : List (ServiceEvent U)}

omit [UuidText U] [DecidableEq U] in
theorem ChangeAndLogins.left {userId : String} {fs : List (ServiceEvent U)}
    (h : ChangeAndLogins (es ++ fs) c userId old new) : ChangeAndLogins es c userId old new :=
  fun i call hcall => h i call (getElem?_spawned_append hcall fs)

omit [UuidText U] [DecidableEq U] in
theorem ChangeAndLogins.take {userId : String} (h : ChangeAndLogins es c userId old new) (n : Nat) :
    ChangeAndLogins (es.take n) c userId old new := by
  rw [← List.take_append_drop n es] at h
  exact h.left

/-- **What holds of every call, in every run.** -/
theorem changeFacts_run (svc : AuthService J) (w : ServiceState U P) (h : ChangeAndLogins es c (toText uid) old new) :
    PoolInv (ChangedFacts svc ⟨w, []⟩ c uid new es) (ChangeFacts svc ⟨w, []⟩ c uid new es)
      (svc.machine.run ⟨w, []⟩ es) := by
  induction es using List.reverseRecOn with
  | nil =>
    refine PoolInv.empty _ ?_
    rintro ⟨k, input, hevent, -⟩
    cases hevent
  | append_singleton es e ih =>
    have hinv := ih h.left
    rw [svc.machine.run_append]
    refine hinv.step e ?_ ?_ ?_ ?_
    · rintro call rfl
      refine ⟨hinv.1.keep nofun, ?_, fun j call' hcall' => hcall'.keep (fun _ hnot => hnot.concat nofun) (fun _ => rfl)⟩
      have hlength := svc.program.length_threads_run w es
      have hstart : (spawned (es ++ [PoolEvent.spawn call]))[(svc.machine.run ⟨w, []⟩ es).threads.length]? = some call := by
        rw [spawned_append, AuthService.machine, hlength]
        exact List.getElem?_concat_length
      rcases h _ call hstart with ⟨hi, rfl⟩ | ⟨username, password, rfl⟩
      · refine ⟨hi, rfl, rfl, fun k input newHash hstep => ?_⟩
        rcases stepsAt_concat hstep with hold | ⟨-, hevent, -⟩
        · have hmade := hold.lt_spawned
          rw [← hi, AuthService.machine, hlength] at hmade
          exact absurd hmade (Nat.lt_irrefl _)
        · cases hevent
      · exact hstart
    · rintro i input call rfl hcall hfacts
      refine ⟨hinv.1.next input hcall hfacts, hfacts.next input hcall, fun j call' hj hcall' hfacts' => ?_⟩
      refine hfacts'.keep (fun hc hnot => hnot.concat (fun input' newHash hevent => ?_)) (fun hc => ?_)
      · exact absurd ((PoolEvent.step.inj hevent).1.trans hc.symm) (Ne.symm hj)
      · have hsame := hfacts.next_shared input (fun hi => hj (hc.trans hi.symm))
        exact congrArg ServiceState.revocation hsame
    · rintro i input rfl hnone
      have hout := (svc.machine_step_none hnone input).2
      refine ⟨hinv.1.keep (by rw [hout]; nofun), fun j call' hcall' => hcall'.keep (fun hc hnot => ?_) (fun _ => rfl)⟩
      refine hnot.concat (fun input' newHash hevent hplace => ?_)
      obtain ⟨rfl, -⟩ := PoolEvent.step.inj hevent
      cases hnone.symm.trans hplace
    · intro x
      exact nomatch x

theorem update_of_changed (h : ChangeAndLogins es c (toText uid) old new) {k : Nat} {input : ServiceInput U}
    (hevent : es[k]? = some (.step c input))
    (hchanged : svc.machine.out (svc.machine.run ⟨w, []⟩ (es.take k)) (.step c input) = some (.ok .changed)) :
    ∃ newHash, svc.program.StepsAt ⟨w, []⟩ es k c input (.changeUpdate uid newHash) := by
  have hinv := changeFacts_run svc w (h.take k)
  obtain ⟨call, hsteps, hout⟩ := Lib.Program.exists_stepsAt hevent hchanged nofun
  have hfacts := hinv.2 c call hsteps.2
  have heffect := login_effect svc input (svc.machine.run ⟨w, []⟩ (es.take k)).shared hfacts.logsInOrChanges
  change (svc.next (svc.machine.run ⟨w, []⟩ (es.take k)).shared input call).2.2 = _ at hout
  generalize svc.next (svc.machine.run ⟨w, []⟩ (es.take k)).shared input call = result at heffect hout
  cases heffect with
  | ends answer hanswer => exact absurd hout (hanswer _)
  | updated uid' newHash users hplace =>
    subst hplace
    obtain ⟨-, rfl, -⟩ := hfacts
    exact ⟨newHash, hsteps⟩
  | _ => cases hout

theorem update_le (h : ChangeAndLogins es c (toText uid) old new) {k k' : Nat} {input input' : ServiceInput U}
    {newHash newHash' : String} (hk : svc.program.StepsAt ⟨w, []⟩ es k c input (.changeUpdate uid newHash))
    (hk' : svc.program.StepsAt ⟨w, []⟩ es k' c input' (.changeUpdate uid newHash')) : k' ≤ k := by
  by_contra hlt
  obtain ⟨-, -, -, hbefore, -⟩ := (changeFacts_run svc w (h.take k')).2 c _ hk'.2
  exact hbefore k input newHash (hk.take (Nat.not_le.1 hlt))

/-- **A login that issues has read the user, and verified the password.** -/
theorem read_of_issue (h : ChangeAndLogins es c (toText uid) old new) {i j : Nat} {username password : String}
    {input : ServiceInput U} {user : UserRecord U} {roles permissions : List String}
    (hstart : (spawned es)[i]? = some (.loginAdmit username password))
    (hissue : svc.program.StepsAt ⟨w, []⟩ es j i input (.loginIssue user roles permissions)) :
    ∃ f readInput name, svc.program.StepsAt ⟨w, []⟩ es f i readInput (.loginFind name password) ∧
      (svc.machine.run ⟨w, []⟩ (es.take f)).shared.users.findByUsername name = some user ∧
      svc.hasher.verifyPassword password user.passwordHash = .ok true := by
  obtain ⟨password', ⟨f, readInput, name', name, hstart', hread, huser⟩, hpassword⟩ :=
    (changeFacts_run svc w (h.take j)).2 i _ hissue.2
  obtain ⟨rfl, rfl⟩ := ServiceCall.loginAdmit.inj (Option.some.inj (hstart.symm.trans (spawned_of_take hstart')))
  rw [List.take_take, Nat.min_eq_left] at huser
  · exact ⟨f, readInput, name, hread.of_take, huser, hpassword⟩
  · have hlt := hread.lt_length
    rw [List.length_take] at hlt
    omega

/-- **A user read after the change has the new hash.** -/
theorem isNewHash_of_late (h : ChangeAndLogins es c (toText uid) old new) {k f : Nat} {input : ServiceInput U}
    (hevent : es[k]? = some (.step c input))
    (hchanged : svc.machine.out (svc.machine.run ⟨w, []⟩ (es.take k)) (.step c input) = some (.ok .changed))
    (hlate : k < f) {name : String} {user : UserRecord U} (hid : user.id = uid)
    (huser : (svc.machine.run ⟨w, []⟩ (es.take f)).shared.users.findByUsername name = some user) :
    IsNewHash svc new user.passwordHash := by
  have hbefore : HasChanged svc ⟨w, []⟩ (es.take f) c := by
    refine ⟨k, input, ?_, ?_⟩
    · rw [List.getElem?_take_of_lt hlate]
      exact hevent
    · rw [List.take_take, Nat.min_eq_left (Nat.le_of_lt hlate)]
      exact hchanged
  obtain ⟨-, -, newHash, hhash, hrow⟩ := (changeFacts_run svc w (h.take f)).1 hbefore
  have hstored : user.passwordHash = newHash := hrow _ (hid ▸ UserTable.findById_of_findByUsername huser)
  rw [hstored]
  exact hhash

omit [DecidableEq U] in
/-- **A token issued in time is refused** after the revocation. -/
theorem refused_of_inTime (hJ : J.Lawful) {revokeInput input : ServiceInput U} {user : UserRecord U}
    {roles permissions : List String} {token : String}
    (hrecorded : w.revocation.map.RecordedFrom (toText user.id) (revokeInput.now + 1))
    (hintime : input.now ≤ revokeInput.now + 1)
    (hissue : svc.jwt.issueWithOptions input.now (AuthService.loginRequest input user roles permissions) = .ok token)
    (now : Int) (claims : Claims) : svc.verifyToken w now token ≠ .ok claims := by
  intro hok
  obtain ⟨hverify, hkeys⟩ := JwtManager.verifyWithRevocation_ok hok
  obtain rfl := JwtManager.verify_of_issue hJ hissue hverify
  obtain ⟨notBefore, hrecord, hle⟩ := hrecorded
  have hafter : notBefore < input.now := hkeys (toText user.id) List.mem_cons_self notBefore hrecord
  omega

theorem issue_of_token {i j : Nat} {input : ServiceInput U} {user : UserRecord U} {roles permissions : List String}
    {token : String} (hissue : svc.program.StepsAt ⟨w, []⟩ es j i input (.loginIssue user roles permissions))
    (htoken : svc.machine.out (svc.machine.run ⟨w, []⟩ (es.take j)) (.step i input) = some (.ok (.loggedIn token))) :
    svc.jwt.issueWithOptions input.now (AuthService.loginRequest input user roles permissions) = .ok token := by
  have hout := htoken.symm.trans (svc.machine_step hissue.2 input).2
  have hplace : (ServiceCall.loginIssue user roles permissions).LogsInOrChanges := trivial
  have heffect := login_effect svc input (svc.program.machine.run ⟨w, []⟩ (es.take j)).shared hplace
  generalize svc.next (svc.program.machine.run ⟨w, []⟩ (es.take j)).shared input (.loginIssue user roles permissions) =
    result at heffect hout
  cases heffect with
  | ends answer hanswer => exact absurd hout.symm (hanswer _)
  | issued user' roles' permissions' token' hsame hissued =>
    obtain ⟨rfl, rfl, rfl⟩ := ServiceCall.loginIssue.inj hsame
    obtain rfl := ServiceReply.loggedIn.inj (Except.ok.inj (Option.some.inj hout))
    exact hissued
  | _ => cases hout

/-- **A change cuts the old password's sessions off** in every run of it with logins, whatever the order of their steps,
in which the logins with the old password issue in time. -/
theorem passwordChange_cutsOff (hJ : J.Lawful) (hhasher : svc.hasher.Lawful) (w : ServiceState U P)
    (h : ChangeAndLogins es c (toText uid) old new) (hintime : OldLoginsInTime svc ⟨w, []⟩ es c uid old new) :
    CutsOff svc ⟨w, []⟩ es c uid old := by
  intro hdone token hobtained now claims
  obtain ⟨-, ⟨r, revokeInput, newHash, hrevoke, hrecorded⟩, -⟩ := (changeFacts_run svc w h).1 hdone
  obtain ⟨k, input, hevent, hchanged⟩ := hdone
  obtain ⟨i, j, username, issueInput, user, roles, permissions, hstart, hissue, hid, htoken⟩ := hobtained
  obtain ⟨f, readInput, name, hread, huser, hpassword⟩ := read_of_issue h hstart hissue
  have hearly : BeforeUpdate svc ⟨w, []⟩ es c uid f ∨ old = new := by
    obtain ⟨lastHash, hupdate⟩ := update_of_changed h hevent hchanged
    rcases Nat.lt_or_ge k f with hlate | hearly
    · obtain ⟨salt, hhash⟩ := isNewHash_of_late h hevent hchanged hlate hid huser
      rw [hhasher hhash] at hpassword
      exact Or.inr (of_decide_eq_true (Except.ok.inj hpassword))
    · exact Or.inl (fun k' input' newHash' hupdate' => hearly.trans (update_le h hupdate' hupdate))
  have hnow := hintime r i f j revokeInput readInput issueInput _ newHash name user roles permissions hrevoke hread hissue
    hid hearly
  subst hid
  exact refused_of_inTime hJ hrecorded hnow (issue_of_token hissue htoken) now claims

end Runs

/-! ## A login over a change -/

def annClaims (issuedAt : Int) : Claims :=
  { sub := "ann", userId := "u-1", roles := [], permissions := [], sessionId := none, jti := some "jti", iat := issuedAt,
    exp := issuedAt + 3600 }

def annTokens : List (String × Claims) := [("token-1", annClaims 1001), ("token-2", annClaims 1002)]

def annService : AuthService (Auth.tableJwt annTokens) :=
  ⟨Auth.tableJwtManager annTokens, plainHasher, .ascii, true, "admin", "user", false⟩

def annState : ServiceState String String :=
  ⟨UserTable.new.insertNew ⟨"u-1", "ann", "Passw0rd-old", true⟩ rfl rfl, Rbac.InMemoryAssignmentStore.new, true,
    MemoryRevocationBackend.new⟩

def annInput (now : Int) : ServiceInput String := ⟨now, "u-2", "salt", "jti", [], none⟩

/-- Ann logs in; before her login issues its token, she changes the password. -/
def loginOverChange (issuedAt : Int) : List (ServiceEvent String) :=
  [.spawn (.loginAdmit "ann" "Passw0rd-old"), .spawn (.changeFind "u-1" "Passw0rd-old" "Passw0rd-new"),
    .step 0 (annInput 1000), .step 0 (annInput 1000), .step 0 (annInput 1000), .step 1 (annInput 1000),
    .step 1 (annInput 1000), .step 1 (annInput 1000), .step 1 (annInput 1000), .step 0 (annInput 1000),
    .step 0 (annInput 1000), .step 0 (annInput issuedAt)]

theorem loginOverChange_calls (issuedAt : Int) :
    ChangeAndLogins (loginOverChange issuedAt) 1 "u-1" "Passw0rd-old" "Passw0rd-new" := by
  intro i call hcall
  have hspawned : spawned (loginOverChange issuedAt) =
      [.loginAdmit "ann" "Passw0rd-old", .changeFind "u-1" "Passw0rd-old" "Passw0rd-new"] := rfl
  rw [hspawned] at hcall
  rcases i with _ | _ | i
  · exact Or.inr ⟨"ann", "Passw0rd-old", (Option.some.inj hcall).symm⟩
  · exact Or.inl ⟨rfl, (Option.some.inj hcall).symm⟩
  · cases hcall

/-- **A session of the old password outlives the change**: its token is issued two seconds after the revocation. -/
theorem loginOverChange_accepted :
    ChangeAndLogins (loginOverChange 1002) 1 "u-1" "Passw0rd-old" "Passw0rd-new" ∧
      ¬ CutsOff annService ⟨annState, []⟩ (loginOverChange 1002) 1 "u-1" "Passw0rd-old" := by
  refine ⟨loginOverChange_calls 1002, fun h => ?_⟩
  have hobtained : ObtainedWith annService ⟨annState, []⟩ (loginOverChange 1002) "u-1" "Passw0rd-old" "token-2" :=
    ⟨0, 11, "ann", annInput 1002, ⟨"u-1", "ann", "Passw0rd-old", true⟩, [], [], rfl, ⟨rfl, rfl⟩, rfl, rfl⟩
  exact h ⟨8, annInput 1000, rfl, rfl⟩ "token-2" hobtained 1002 (annClaims 1002) rfl

theorem loginOverChange_clock {j i : Nat} {input : ServiceInput String}
    (h : (loginOverChange 1001)[j]? = some (.step i input)) : 1000 ≤ input.now ∧ input.now ≤ 1001 := by
  have hmem := List.mem_of_getElem? h
  simp only [loginOverChange, List.mem_cons, List.not_mem_nil, or_false, PoolEvent.step.injEq, reduceCtorEq,
    false_or] at hmem
  have hinput : input = annInput 1000 ∨ input = annInput 1001 := by tauto
  rcases hinput with rfl | rfl
  · decide
  · decide

/-- A second earlier it does not. -/
theorem passwordChange_cutsOff_ann :
    CutsOff annService ⟨annState, []⟩ (loginOverChange 1001) 1 "u-1" "Passw0rd-old" := by
  refine passwordChange_cutsOff (Auth.tableJwt_lawful annTokens) plainHasher_lawful annState
    (loginOverChange_calls 1001) ?_
  intro r i f j revokeInput readInput issueInput userId newHash username user roles permissions hrevoke _ hissue _ _
  have hr := loginOverChange_clock hrevoke.1
  have hj := loginOverChange_clock hissue.1
  omega

end Service
end Kirino
