import Kirino.Service.Accounts
/-!
# AccountEnds — what a logout and a deletion end (`service/login/mod.rs`)

After a logout no token of its session is accepted that was issued before it (`logout_cutsOff`).  A deletion revokes the
user's tokens and removes the user in a later step.  A login may read the user before the removal and issue after the
revocation; no other token of the user is accepted from then on (`deletion_cutsOff`).
-/
namespace Kirino
namespace Service

open Auth (JwtCrate Claims)
open Lib (PoolInv Program)

/-! ## A user that is gone -/

section Calls
variable {U : Type}

/-- The id of the user that a registration is about to create. -/
def ServiceCall.creating : ServiceCall U → Option U
  | .registerCount user => some user.id
  | .registerCreate user _ => some user.id
  | _ => none

/-- The id of the user that a login has read. -/
def ServiceCall.signingIn : ServiceCall U → Option U
  | .loginVerify user _ => some user.id
  | .loginRoles user => some user.id
  | .loginPermissions user _ => some user.id
  | .loginIssue user _ _ => some user.id
  | _ => none

def AccountCall.creating : AccountCall U → Option U
  | .service call => call.creating
  | .sessionLogin call => call.creating
  | _ => none

def AccountCall.signingIn : AccountCall U → Option U
  | .service call => call.signingIn
  | .sessionLogin call => call.signingIn
  | .sessionIssue user _ _ _ => some user.id
  | _ => none

/-- The calls that a caller starts. -/
def AccountCall.Begins : AccountCall U → Prop
  | .service (.registerAdmit _ _) => True
  | .service (.loginAdmit _ _) => True
  | .service (.changeFind _ _ _) => True
  | .sessionLogin (.loginAdmit _ _) => True
  | .deleteRevoke _ => True
  | .logoutRevoke _ => True
  | _ => False

theorem AccountCall.Begins.fresh {call : AccountCall U} (h : call.Begins) : call.creating = none ∧ call.signingIn = none := by
  unfold AccountCall.Begins at h
  split at h <;> first | exact h.elim | exact ⟨rfl, rfl⟩

/-- Only calls that a caller starts are started, and no id drawn is the one. -/
def Starts (uid : U) : AccountEvent U → Prop
  | .spawn call => call.Begins
  | .step _ input => input.id ≠ uid
  | .env _ => True

end Calls

section KeepsOff
variable {U P : Type} [DecidableEq U] {uid : U} {w : ServiceState U P}

/-- What a step of the service does about a user: no call comes to create it, and where it is gone, it stays so, and no
call comes to sign it in. -/
structure KeepsOff (uid : U) (w : ServiceState U P) (call : ServiceCall U) (result : ServiceStep U P) : Prop where
  creating : result.2.1.creating ≠ some uid
  gone : w.users.findById uid = none → result.1.users.findById uid = none
  signingIn : w.users.findById uid = none → call.signingIn ≠ some uid → result.2.1.signingIn ≠ some uid

theorem keepsOff_ends {call : ServiceCall U} {answer : Option (ServiceAnswer U)} :
    KeepsOff uid w call (w, .returned, answer) :=
  ⟨nofun, id, fun _ _ => nofun⟩

/-- The same of a call's step. -/
structure AccountKeepsOff (uid : U) (w : ServiceState U P) (call : AccountCall U) (result : AccountStep U P) : Prop where
  creating : result.2.1.creating ≠ some uid
  gone : w.users.findById uid = none → result.1.users.findById uid = none
  signingIn : w.users.findById uid = none → call.signingIn ≠ some uid → result.2.1.signingIn ≠ some uid

theorem accountKeepsOff_ends {call : AccountCall U} {answer : Option (AccountAnswer U)} :
    AccountKeepsOff uid w call (w, .returned, answer) :=
  ⟨nofun, id, fun _ _ => nofun⟩

end KeepsOff

section Gone
variable {J : JwtCrate} {U P : Type} [UuidText U] [DecidableEq U] {svc : AuthService J} {uid : U} {w : ServiceState U P}

theorem login_keepsOff {input : ServiceInput U} {call : ServiceCall U} (hcall : call.LogsInOrChanges) :
    KeepsOff uid w call (svc.next w input call) := by
  have heffect := login_effect svc input w hcall
  generalize svc.next w input call = result at heffect
  cases heffect with
  | read username password user hfind huser =>
    refine ⟨nofun, id, fun hgone _ hsame => ?_⟩
    obtain rfl : user.id = uid := Option.some.inj hsame
    cases hgone.symm.trans (UserTable.findById_of_findByUsername huser)
  | verified user password hverify => exact ⟨nofun, id, fun _ h => by rwa [hverify] at h⟩
  | roles user names hroles => exact ⟨nofun, id, fun _ h => by rwa [hroles] at h⟩
  | permissions user names permissions hpermissions => exact ⟨nofun, id, fun _ h => by rwa [hpermissions] at h⟩
  | updated uid' newHash users hupdate hupdated =>
    refine ⟨nofun, fun hgone => ?_, fun _ _ => nofun⟩
    dsimp only
    rw [UserTable.findById_updatePassword hupdated]
    split
    · rename_i hsame
      rw [← hsame, hgone]
      rfl
    · exact hgone
  | _ => exact ⟨nofun, id, fun _ _ => nofun⟩

theorem register_keepsOff {input : ServiceInput U} {call : ServiceCall U} (hcall : call.Registers)
    (hcreating : call.creating ≠ some uid) (hdraw : input.id ≠ uid) : KeepsOff uid w call (svc.next w input call) := by
  cases call with
  | registerAdmit username password =>
    unfold AuthService.next AuthService.registerAdmitStep
    dsimp only
    split
    · exact keepsOff_ends
    · split
      · exact keepsOff_ends
      · split
        · exact keepsOff_ends
        · exact ⟨nofun, id, fun _ _ => nofun⟩
  | registerFind username password =>
    unfold AuthService.next AuthService.registerFindStep
    dsimp only
    split
    · exact keepsOff_ends
    · split
      · exact keepsOff_ends
      · exact ⟨nofun, id, fun _ _ => nofun⟩
  | registerLatch username password =>
    unfold AuthService.next AuthService.registerLatchStep
    dsimp only
    split
    · exact keepsOff_ends
    · split
      · split
        · exact ⟨fun h => hdraw (Option.some.inj h), id, fun _ _ => nofun⟩
        · exact ⟨fun h => hdraw (Option.some.inj h), id, fun _ _ => nofun⟩
      · exact ⟨fun h => hdraw (Option.some.inj h), id, fun _ _ => nofun⟩
  | registerCount user =>
    unfold AuthService.next AuthService.registerCountStep
    dsimp only
    split
    · exact keepsOff_ends
    · exact ⟨hcreating, id, fun _ _ => nofun⟩
  | registerCreate user isFirst =>
    unfold AuthService.next AuthService.registerCreateStep
    dsimp only
    split
    · exact keepsOff_ends
    · split
      · exact keepsOff_ends
      · rename_i users hcreate
        have hother : uid ≠ user.id := fun h => hcreating (congrArg some h.symm)
        refine ⟨nofun, fun hgone => ?_, fun _ _ => nofun⟩
        exact (UserTable.findById_createUser hcreate uid).trans ((if_neg hother).trans hgone)
  | registerAssign user isFirst =>
    unfold AuthService.next AuthService.registerAssignStep
    dsimp only
    split
    · exact keepsOff_ends
    · exact ⟨nofun, id, fun _ _ => nofun⟩
  | returned => exact keepsOff_ends
  | _ => exact hcall.elim

theorem service_keepsOff {input : ServiceInput U} {call : ServiceCall U} (hcreating : call.creating ≠ some uid)
    (hdraw : input.id ≠ uid) : KeepsOff uid w call (svc.next w input call) := by
  by_cases hcall : call.Registers
  · exact register_keepsOff hcall hcreating hdraw
  · refine login_keepsOff ?_
    cases call <;> first | trivial | exact absurd trivial hcall

theorem account_keepsOff {input : AccountInput U} {call : AccountCall U} (hcreating : call.creating ≠ some uid)
    (hdraw : input.id ≠ uid) : AccountKeepsOff uid w call (call.next svc w input) := by
  cases call with
  | service call =>
    have hservice : KeepsOff uid w call (svc.next w input.toServiceInput call) := service_keepsOff hcreating hdraw
    exact ⟨hservice.creating, hservice.gone, hservice.signingIn⟩
  | sessionLogin call =>
    rcases sessionLogin_cases svc input w call with ⟨user, roles, permissions, rfl⟩ | hstep
    · unfold AccountCall.next sessionLoginStep
      dsimp only
      split
      · exact accountKeepsOff_ends
      · exact ⟨nofun, id, fun _ h => h⟩
    · have hservice : KeepsOff uid w call (svc.next w input.toServiceInput call) := service_keepsOff hcreating hdraw
      rw [hstep]
      exact ⟨hservice.creating, hservice.gone, hservice.signingIn⟩
  | sessionIssue user roles permissions sessionId =>
    unfold AccountCall.next sessionIssueStep
    dsimp only
    split
    · exact accountKeepsOff_ends
    · exact accountKeepsOff_ends
    · exact accountKeepsOff_ends
  | deleteRevoke userId =>
    unfold AccountCall.next deleteRevokeStep
    dsimp only
    split
    · exact accountKeepsOff_ends
    · split
      · exact ⟨nofun, id, fun _ _ => nofun⟩
      · exact ⟨nofun, id, fun _ _ => nofun⟩
  | deleteRemove uid' =>
    unfold AccountCall.next deleteRemoveStep
    dsimp only
    split
    · exact accountKeepsOff_ends
    · refine ⟨nofun, fun hgone => ?_, fun _ _ => nofun⟩
      dsimp only
      rw [UserTable.findById_deleteUser, hgone, ite_self]
  | logoutRevoke sessionId =>
    unfold AccountCall.next logoutRevokeStep
    dsimp only
    split
    · exact ⟨nofun, id, fun _ _ => nofun⟩
    · exact ⟨nofun, id, fun _ _ => nofun⟩
  | logoutDestroy =>
    unfold AccountCall.next logoutDestroyStep
    dsimp only
    split
    · exact accountKeepsOff_ends
    · exact accountKeepsOff_ends
  | returned => exact accountKeepsOff_ends

/-- No call is about to create the user; once it is gone it is not found, and no call watched signs it in. -/
def KeptOff (uid : U) (gone : Prop) (watched : Nat → Prop) : AccountPool U P → Prop :=
  PoolInv (fun w => gone → w.users.findById uid = none)
    (fun i _ call => call.creating ≠ some uid ∧ (gone → watched i → call.signingIn ≠ some uid))

/-- **Every event keeps a user off.** -/
theorem KeptOff.step {gone : Prop} {watched : Nat → Prop} {p : AccountPool U P} (h : KeptOff uid gone watched p)
    {e : AccountEvent U} (he : Starts uid e) : KeptOff uid gone watched ((accountMachine svc).step p e) := by
  show PoolInv _ _ ((accountProgram svc).machine.step p e)
  refine PoolInv.step h e ?_ ?_ ?_ ?_
  · rintro call rfl
    obtain ⟨hcreating, hsigning⟩ := AccountCall.Begins.fresh he
    refine ⟨h.1, ⟨by rw [hcreating]; nofun, fun _ _ => by rw [hsigning]; nofun⟩, fun _ _ => id⟩
  · rintro i input call rfl hcall hold
    have hkeeps : AccountKeepsOff uid p.shared call (call.next svc p.shared input) := account_keepsOff hold.1 he
    refine ⟨fun hgone => hkeeps.gone (h.1 hgone), ⟨hkeeps.creating, fun hgone hwatched => ?_⟩, fun _ _ _ _ => id⟩
    exact hkeeps.signingIn (h.1 hgone) (hold.2 hgone hwatched)
  · rintro i input rfl -
    exact ⟨h.1, fun _ _ => id⟩
  · rintro x rfl
    exact ⟨h.1, fun _ _ _ => id⟩

theorem KeptOff.between {gone : Prop} {watched : Nat → Prop} {p₀ : AccountPool U P} {es : List (AccountEvent U)} {a b : Nat}
    (h : KeptOff uid gone watched ((accountMachine svc).run p₀ (es.take a))) (hstarts : ∀ e ∈ es, Starts uid e)
    (hab : a ≤ b) : KeptOff uid gone watched ((accountMachine svc).run p₀ (es.take b)) :=
  (accountMachine svc).run_invariant_between _ p₀ es hab h
    (fun _ _ _ _ he hq => hq.step (hstarts _ (List.mem_of_getElem? he)))

end Gone

/-! ## Logout and deletion -/

section Definitions
variable {J : JwtCrate} {U P : Type} [UuidText U] [DecidableEq U] (svc : AuthService J) (p₀ : AccountPool U P)
variable (es : List (AccountEvent U))

/-- At event `f` login `i` reads the user. -/
def ReadsAt (f i : Nat) : Prop :=
  ∃ input username password, (accountProgram svc).StepsAt p₀ es f i input (.service (.loginFind username password)) ∨
    (accountProgram svc).StepsAt p₀ es f i input (.sessionLogin (.loginFind username password))

/-- At event `j` login `i` gets the token, with the session it names. -/
def SessionIssuedAt (j i : Nat) (user : UserRecord U) (sessionId : U) (token : String) : Prop :=
  ∃ input roles permissions,
    (accountProgram svc).StepsAt p₀ es j i input (.sessionIssue user roles permissions sessionId) ∧
    (accountMachine svc).out ((accountMachine svc).run p₀ (es.take j)) (.step i input) =
      some (.ok (.session token sessionId))

/-- At event `j` login `i` gets the token, with a session or without. -/
def IssuedAt (j i : Nat) (user : UserRecord U) (token : String) : Prop :=
  (∃ input roles permissions,
    (accountProgram svc).StepsAt p₀ es j i input (.service (.loginIssue user roles permissions)) ∧
    (accountMachine svc).out ((accountMachine svc).run p₀ (es.take j)) (.step i input) =
      some (.ok (.service (.loggedIn token)))) ∨
  ∃ sessionId, SessionIssuedAt svc p₀ es j i user sessionId token

end Definitions

section Ends
variable {J : JwtCrate} {U P : Type} [UuidText U] [DecidableEq U] {svc : AuthService J} {p₀ : AccountPool U P}
variable {es : List (AccountEvent U)} {i j : Nat} {user : UserRecord U} {token : String}

/-- **A token that a login gets is one of its issue**, and names its user, and its session if it has one. -/
theorem issue_of_sessionIssuedAt {sessionId : U} (h : SessionIssuedAt svc p₀ es j i user sessionId token) :
    ∃ input request, es[j]? = some (.step i input) ∧ svc.jwt.issueWithOptions input.now request = .ok token ∧
      request.userId = toText user.id ∧ request.sessionId = some (toText sessionId) := by
  obtain ⟨input, roles, permissions, hstep, hout⟩ := h
  refine ⟨input, sessionRequest input user roles permissions sessionId, hstep.1, ?_, rfl, rfl⟩
  rw [hstep.out] at hout
  change (sessionIssueStep svc _ input user roles permissions sessionId).2.2 = _ at hout
  unfold sessionIssueStep at hout
  split at hout
  · cases hout
  · cases hout
  · rename_i token' htoken
    obtain rfl := (AccountReply.session.inj (Except.ok.inj (Option.some.inj hout))).1
    exact htoken

theorem issue_of_issuedAt (h : IssuedAt svc p₀ es j i user token) :
    ∃ input request, es[j]? = some (.step i input) ∧ svc.jwt.issueWithOptions input.now request = .ok token ∧
      request.userId = toText user.id := by
  rcases h with ⟨input, roles, permissions, hstep, hout⟩ | ⟨sessionId, h⟩
  · refine ⟨input, AuthService.loginRequest input.toServiceInput user roles permissions, hstep.1, ?_, rfl⟩
    rw [hstep.out] at hout
    change ((svc.loginIssueStep _ input.toServiceInput user roles permissions).2.2).map _ = _ at hout
    unfold AuthService.loginIssueStep at hout
    split at hout
    · cases hout
    · cases hout
    · rename_i token' htoken
      obtain rfl := ServiceReply.loggedIn.inj (AccountReply.service.inj (Except.ok.inj (Option.some.inj hout)))
      exact htoken
  · obtain ⟨input, request, hevent, hissue, huser, -⟩ := issue_of_sessionIssuedAt h
    exact ⟨input, request, hevent, hissue, huser⟩

/-- A login's issue is no step of a call that signs nobody in. -/
theorem ne_of_issuedAt (hissued : IssuedAt svc p₀ es j i user token) {d r : Nat} {input : AccountInput U}
    {call : AccountCall U} (hstep : (accountProgram svc).StepsAt p₀ es r d input call) (hplace : call.signingIn = none) :
    j ≠ r := by
  rintro rfl
  rcases hissued with ⟨_, _, _, hissue, -⟩ | ⟨_, _, _, _, hissue, -⟩
  · obtain ⟨-, -, rfl⟩ := hissue.unique hstep
    cases hplace
  · obtain ⟨-, -, rfl⟩ := hissue.unique hstep
    cases hplace

/-- **A logout ends the session's tokens**: in any interleaving, one that is accepted was issued after the logout's
revocation. -/
theorem logout_cutsOff (hJ : J.Lawful) (hsafe : (accountMachine svc).Along (SafeSweep svc) p₀ es) (hclock : ClockRises es)
    {d r : Nat} {input : AccountInput U} {sessionId : U}
    (hrevoke : (accountProgram svc).StepsAt p₀ es r d input (.logoutRevoke sessionId)) :
    ∀ i j user token, SessionIssuedAt svc p₀ es j i user sessionId token → ∀ now claims, NoneAfter es now →
      svc.verifyToken ((accountMachine svc).run p₀ es).shared now token = .ok claims → r < j := by
  intro i j user token hissued now claims hnow haccepted
  obtain ⟨issueInput, request, hevent, hissue, -, hsession⟩ := issue_of_sessionIssuedAt hissued
  by_contra hnot
  have hlt : j < r := lt_of_le_of_ne (Nat.le_of_not_lt hnot) (ne_of_issuedAt (Or.inr ⟨sessionId, hissued⟩) hrevoke rfl)
  have hcall : AccountEvent.tokenCall ((accountMachine svc).run p₀ (es.take r)) (.step d input) =
      some ⟨input.now, .revokeSession (toText sessionId)⟩ := by
    show ((((accountMachine svc).run p₀ (es.take r)).threads[d]?).bind (AccountCall.tokenCall input.now)) = _
    rw [hrevoke.2]
    rfl
  have hiat : issueInput.now ≤ input.now := hclock.le hlt hevent hrevoke.1 rfl rfl
  exact not_accepted_of_revoked hJ hsafe hclock hrevoke.1 hcall hissue hsession hiat hnow claims haccepted

/-- A login whose user was read while it was gone signs another one in. -/
theorem ne_of_keptOff {uid : U} {f : Nat} (h : KeptOff uid True (fun _ => False) ((accountMachine svc).run p₀ (es.take f)))
    (hstarts : ∀ e ∈ es, Starts uid e) (hread : ReadsAt svc p₀ es f i) (hlt : f < j)
    (hissued : IssuedAt svc p₀ es j i user token) : user.id ≠ uid := by
  have hplace : ∃ call, ((accountMachine svc).run p₀ (es.take f)).threads[i]? = some call ∧ call.signingIn = none := by
    obtain ⟨input, username, password, hservice | hsession⟩ := hread
    · exact ⟨_, hservice.2, rfl⟩
    · exact ⟨_, hsession.2, rfl⟩
  obtain ⟨call, hcall, hnone⟩ := hplace
  have hwatched : KeptOff uid True (fun n => n = i) ((accountMachine svc).run p₀ (es.take f)) := by
    refine ⟨h.1, fun n call' hcall' => ⟨(h.2 n call' hcall').1, fun _ hn => ?_⟩⟩
    subst hn
    obtain rfl := Option.some.inj (hcall.symm.trans hcall')
    rw [hnone]
    nofun
  have hlater := (hwatched.between hstarts (Nat.le_of_lt hlt)).2
  intro hid
  rcases hissued with ⟨input, roles, permissions, hstep, -⟩ | ⟨sessionId, input, roles, permissions, hstep, -⟩
  · exact (hlater i _ hstep.2).2 trivial rfl (congrArg some hid)
  · exact (hlater i _ hstep.2).2 trivial rfl (congrArg some hid)

/-- **From the removal on the user is kept off.** -/
theorem keptOff_of_removed {uid : U} (hstarts : ∀ e ∈ es, Starts uid e)
    (hfree : ∀ (i : Nat) call, p₀.threads[i]? = some call → call.creating ≠ some uid) {d k : Nat} {input : AccountInput U}
    (hremove : (accountProgram svc).StepsAt p₀ es k d input (.deleteRemove uid)) (hdone : input.refused = none) {n : Nat}
    (hn : k < n) : KeptOff uid True (fun _ => False) ((accountMachine svc).run p₀ (es.take n)) := by
  have hstart : KeptOff uid False (fun _ => False) ((accountMachine svc).run p₀ (es.take 0)) :=
    ⟨False.elim, fun i call hcall => ⟨hfree i call hcall, False.elim⟩⟩
  have hkept : KeptOff uid False (fun _ => False) ((accountMachine svc).run p₀ (es.take (k + 1))) :=
    hstart.between hstarts (Nat.zero_le _)
  have hremoved : KeptOff uid True (fun _ => False) ((accountMachine svc).run p₀ (es.take (k + 1))) := by
    refine ⟨fun _ => ?_, fun n call hcall => ⟨(hkept.2 n call hcall).1, fun _ => False.elim⟩⟩
    rw [(accountMachine svc).run_take_succ p₀ hremove.1, ((accountProgram svc).machine_step hremove.2 input).1]
    show (deleteRemoveStep _ input uid).1.users.findById uid = none
    unfold deleteRemoveStep
    rw [hdone]
    exact (UserTable.findById_deleteUser uid).trans (if_pos rfl)
  exact hremoved.between hstarts hn

/-- **A token got before the deletion's revocation is refused.** -/
theorem refused_of_deletion (hJ : J.Lawful) (hsafe : (accountMachine svc).Along (SafeSweep svc) p₀ es)
    (hclock : ClockRises es) {d r : Nat} {input : AccountInput U}
    (hrevoke : (accountProgram svc).StepsAt p₀ es r d input (.deleteRevoke (toText user.id)))
    (hissued : IssuedAt svc p₀ es j i user token) (hlt : j < r) {now : Int} (hnow : NoneAfter es now) (claims : Claims) :
    svc.verifyToken ((accountMachine svc).run p₀ es).shared now token ≠ .ok claims := by
  obtain ⟨issueInput, request, hevent, hissue, huser⟩ := issue_of_issuedAt hissued
  have hcall : AccountEvent.tokenCall ((accountMachine svc).run p₀ (es.take r)) (.step d input) =
      some ⟨input.now, .revokeAllForUser (toText user.id)⟩ := by
    show ((((accountMachine svc).run p₀ (es.take r)).threads[d]?).bind (AccountCall.tokenCall input.now)) = _
    rw [hrevoke.2]
    show (parseStr (toText user.id) : Option U).map _ = _
    rw [UuidText.parse_toText]
    rfl
  exact not_accepted_of_revoked hJ hsafe hclock hrevoke.1 hcall hissue huser (hclock.le hlt hevent hrevoke.1 rfl rfl) hnow
    claims

/-- **A deletion ends the user**: in any interleaving in which its id is not drawn again, the user is not found, and a
token of its logins that is accepted was issued after the deletion's revocation by a login that read the user before the
removal. -/
theorem deletion_cutsOff (hJ : J.Lawful) (hsafe : (accountMachine svc).Along (SafeSweep svc) p₀ es)
    (hclock : ClockRises es) {uid : U} (hstarts : ∀ e ∈ es, Starts uid e)
    (hfree : ∀ (i : Nat) call, p₀.threads[i]? = some call → call.creating ≠ some uid) {d r k : Nat}
    {revokeInput removeInput : AccountInput U}
    (hrevoke : (accountProgram svc).StepsAt p₀ es r d revokeInput (.deleteRevoke (toText uid)))
    (hremove : (accountProgram svc).StepsAt p₀ es k d removeInput (.deleteRemove uid)) (hdone : removeInput.refused = none) :
    ((accountMachine svc).run p₀ es).shared.users.findById uid = none ∧
      ∀ i f j user token, ReadsAt svc p₀ es f i → f < j → IssuedAt svc p₀ es j i user token → user.id = uid →
        ∀ now claims, NoneAfter es now →
          svc.verifyToken ((accountMachine svc).run p₀ es).shared now token = .ok claims → r < j ∧ f < k := by
  refine ⟨?_, fun i f j user token hread hlt hissued hid now claims hnow haccepted => ⟨?_, ?_⟩⟩
  · have hend := keptOff_of_removed hstarts hfree hremove hdone hremove.lt_length
    rw [List.take_length] at hend
    exact hend.1 trivial
  · by_contra hnot
    subst hid
    have hearly : j < r := lt_of_le_of_ne (Nat.le_of_not_lt hnot) (ne_of_issuedAt hissued hrevoke rfl)
    exact refused_of_deletion hJ hsafe hclock hrevoke hissued hearly hnow claims haccepted
  · by_contra hnot
    have hlate : k < f := by
      refine lt_of_le_of_ne (Nat.le_of_not_lt hnot) ?_
      rintro rfl
      obtain ⟨_, _, _, hservice | hsession⟩ := hread
      · cases (hservice.unique hremove).2.2
      · cases (hsession.unique hremove).2.2
    exact ne_of_keptOff (keptOff_of_removed hstarts hfree hremove hdone hlate) hstarts hread hlt hissued hid

end Ends

/-! ## Ann logs in, logs out and is deleted -/

def sessionClaims : Claims := { annClaims 1001 with sessionId := some "s-1" }

def accountService : AuthService (Auth.tableJwt [("token-1", sessionClaims)]) :=
  ⟨Auth.tableJwtManager [("token-1", sessionClaims)], plainHasher, .ascii, true, "admin", "user", false⟩

def accountInput (now : Int) : AccountInput String := { annInput now with session := .ok "s-1" }

def accountRun : List (AccountEvent String) :=
  [.spawn (.sessionLogin (.loginAdmit "ann" "Passw0rd-old")), .step 0 (accountInput 1000), .step 0 (accountInput 1000),
    .step 0 (accountInput 1000), .step 0 (accountInput 1000), .step 0 (accountInput 1000), .step 0 (accountInput 1000),
    .step 0 (accountInput 1001), .spawn (.logoutRevoke "s-1"), .step 1 (accountInput 1001), .step 1 (accountInput 1001),
    .spawn (.deleteRevoke "u-1"), .step 2 (accountInput 1002), .step 2 (accountInput 1002)]

theorem accountRun_safe : (accountMachine accountService).Along (SafeSweep accountService) ⟨annState, []⟩ accountRun := by
  refine (accountMachine accountService).along_of_forall _ _ accountRun (fun p e he => safeSweep_of_margin (by decide) ?_)
  rintro t life rfl
  simp [accountRun] at he

theorem accountRun_clock : ClockRises accountRun := by
  unfold ClockRises
  decide

theorem accountRun_issued :
    SessionIssuedAt accountService ⟨annState, []⟩ accountRun 7 0 ⟨"u-1", "ann", "Passw0rd-old", true⟩ "s-1" "token-1" :=
  ⟨accountInput 1001, [], [], ⟨rfl, rfl⟩, rfl⟩

/-- Once she is logged out, and once she is deleted, her token is refused. -/
theorem logout_cutsOff_ann :
    ¬ ∃ now claims, NoneAfter accountRun now ∧
      accountService.verifyToken ((accountMachine accountService).run ⟨annState, []⟩ accountRun).shared now "token-1" =
        .ok claims := by
  rintro ⟨now, claims, hnow, haccepted⟩
  have hlogout : (accountProgram accountService).StepsAt ⟨annState, []⟩ accountRun 9 1 (accountInput 1001)
      (.logoutRevoke "s-1") := ⟨rfl, rfl⟩
  have hlate := logout_cutsOff (Auth.tableJwt_lawful _) accountRun_safe accountRun_clock hlogout 0 7 _ "token-1"
    accountRun_issued now claims hnow haccepted
  omega

theorem deletion_cutsOff_ann :
    ((accountMachine accountService).run ⟨annState, []⟩ accountRun).shared.users.findById "u-1" = none ∧
      ∀ now claims, NoneAfter accountRun now →
        accountService.verifyToken ((accountMachine accountService).run ⟨annState, []⟩ accountRun).shared now "token-1" ≠
          .ok claims := by
  have hstarts : ∀ e ∈ accountRun, Starts "u-1" e := by
    simp [accountRun, Starts, AccountCall.Begins, accountInput, annInput]
  have hends := deletion_cutsOff (Auth.tableJwt_lawful _) accountRun_safe accountRun_clock hstarts nofun (d := 2) (r := 12)
    (k := 13) ⟨rfl, rfl⟩ ⟨rfl, rfl⟩ rfl
  refine ⟨hends.1, fun now claims hnow haccepted => ?_⟩
  have hlate := (hends.2 0 2 7 _ "token-1" ⟨accountInput 1000, "ann", "Passw0rd-old", Or.inr ⟨rfl, rfl⟩⟩ (by decide)
    (Or.inr ⟨"s-1", accountRun_issued⟩) rfl now claims hnow haccepted).1
  omega

/-- A login that goes on over the deletion keeps the token that it issues two seconds after the revocation. -/
example : annService.verifyToken ((accountMachine annService).run ⟨annState, []⟩
    [.spawn (.service (.loginAdmit "ann" "Passw0rd-old")), .step 0 (accountInput 1000), .step 0 (accountInput 1000),
      .spawn (.deleteRevoke "u-1"), .step 1 (accountInput 1000), .step 1 (accountInput 1000), .step 0 (accountInput 1000),
      .step 0 (accountInput 1000), .step 0 (accountInput 1000), .step 0 (accountInput 1002)]).shared 1002 "token-2" =
    .ok (annClaims 1002) := rfl

end Service
end Kirino
