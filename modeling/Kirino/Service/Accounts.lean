import Kirino.Service.FirstUser
import Kirino.Service.PasswordChange
import Kirino.Service.UserDirectory
/-!
# Accounts — sessions at login, logout and deletion (`service/login/mod.rs`)

A login with a session takes the steps of a login up to the permissions, has the session manager create the session and
issues a token that names it.  A logout revokes the session's tokens, a deletion the user's; the user goes in a later
step.  The host has the token manager and calls it beside.  A token issued before its revocation is never accepted again
(`not_accepted_of_revoked`).
-/
namespace Kirino
namespace Service

open Auth (JwtCrate JwtManager MemoryRevocationBackend Claims JwtEvent jwtMachine SafePrune Revokes)
open Lib (Machine Pool PoolEvent PoolInv Program HashMap)

/-- What a step draws and is given; the session manager answers a creation with the session's id. -/
structure AccountInput (U : Type) extends ServiceInput U where
  session : Except ServiceError U

inductive AccountReply (U : Type) where
  | service (reply : ServiceReply U)
  | session (token : String) (sessionId : U)
  | deleted (removed : Bool)
  | loggedOut

abbrev AccountAnswer (U : Type) := Except ServiceError (AccountReply U)

/-- A call in flight, named by what it does next. -/
inductive AccountCall (U : Type) where
  | service (call : ServiceCall U)
  | sessionLogin (call : ServiceCall U)
  | sessionIssue (user : UserRecord U) (roles permissions : List String) (sessionId : U)
  | deleteRevoke (userId : String)
  | deleteRemove (uid : U)
  | logoutRevoke (sessionId : U)
  | logoutDestroy
  | returned

abbrev AccountStep (U P : Type) := ServiceState U P × AccountCall U × Option (AccountAnswer U)

section Steps
variable {J : JwtCrate} {U P : Type} [UuidText U] [DecidableEq U] (svc : AuthService J) (w : ServiceState U P)
variable (input : AccountInput U)

/-- The step of a call that the service makes of itself. -/
def serviceStep (wrap : ServiceCall U → AccountCall U) (call : ServiceCall U) : AccountStep U P :=
  let (w', call', answer) := svc.next w input.toServiceInput call
  (w', wrap call', answer.map (fun result => result.map .service))

/-- The steps of a login; the session is created where a login issues. -/
def sessionLoginStep : ServiceCall U → AccountStep U P
  | .loginIssue user roles permissions =>
    match input.session with
    | .error e => (w, .returned, some (.error e))
    | .ok sessionId => (w, .sessionIssue user roles permissions sessionId, none)
  | call => serviceStep svc w input .sessionLogin call

def sessionRequest (user : UserRecord U) (roles permissions : List String) (sessionId : U) : JwtManager.IssueRequest :=
  { AuthService.loginRequest input.toServiceInput user roles permissions with sessionId := some (toText sessionId) }

def sessionIssueStep (user : UserRecord U) (roles permissions : List String) (sessionId : U) : AccountStep U P :=
  match svc.jwt.issueWithOptions input.now (sessionRequest input user roles permissions sessionId) with
  | .error (.error text) => (w, .returned, some (.error (.other text)))
  | .error .panicked => (w, .returned, some (.error .panicked))
  | .ok token => (w, .returned, some (.ok (.session token sessionId)))

/-- The tokens are revoked under the text that was given. -/
def deleteRevokeStep (userId : String) : AccountStep U P :=
  match (parseStr userId : Option U) with
  | none => (w, .returned, some (.error (.validation "invalid user_id")))
  | some uid =>
    match JwtManager.revokeAllForUser w.revocation input.now userId with
    | (some (), revocation) => ({ w with revocation }, .deleteRemove uid, none)
    | (none, revocation) => ({ w with revocation }, .returned, some (.error .panicked))

def deleteRemoveStep (uid : U) : AccountStep U P :=
  match input.refused with
  | some e => (w, .returned, some (.error e))
  | none =>
    let (removed, users) := w.users.deleteUser uid
    ({ w with users }, .returned, some (.ok (.deleted removed)))

def logoutRevokeStep (sessionId : U) : AccountStep U P :=
  match JwtManager.revokeSession w.revocation input.now (toText sessionId) with
  | (some (), revocation) => ({ w with revocation }, .logoutDestroy, none)
  | (none, revocation) => ({ w with revocation }, .returned, some (.error .panicked))

def logoutDestroyStep : AccountStep U P :=
  match input.refused with
  | some e => (w, .returned, some (.error e))
  | none => (w, .returned, some (.ok .loggedOut))

def AccountCall.next : AccountCall U → AccountStep U P
  | .service call => serviceStep svc w input .service call
  | .sessionLogin call => sessionLoginStep svc w input call
  | .sessionIssue user roles permissions sessionId => sessionIssueStep svc w input user roles permissions sessionId
  | .deleteRevoke userId => deleteRevokeStep w input userId
  | .deleteRemove uid => deleteRemoveStep w input uid
  | .logoutRevoke sessionId => logoutRevokeStep w input sessionId
  | .logoutDestroy => logoutDestroyStep w input
  | .returned => (w, .returned, none)

/-- Beside the calls in flight, the host calls the token manager. -/
def accountProgram : Program (ServiceState U P) (AccountCall U) (AccountInput U) JwtEvent (Option (AccountAnswer U)) where
  next _ input w call := call.next svc w input
  env e w := ({ w with revocation := (jwtMachine MemoryRevocationBackend svc.jwt).step w.revocation e }, none)
  idle := none

end Steps

abbrev AccountPool (U P : Type) := Pool (ServiceState U P) (AccountCall U)

abbrev AccountEvent (U : Type) := PoolEvent (AccountCall U) (AccountInput U) JwtEvent

abbrev accountMachine {J : JwtCrate} {U P : Type} [UuidText U] [DecidableEq U] (svc : AuthService J) :
    Machine (AccountPool U P) (AccountEvent U) (Option (AccountAnswer U)) := (accountProgram svc).machine

/-! ## The calls of the token manager -/

section Tokens
variable {J : JwtCrate} {U P : Type} [UuidText U] [DecidableEq U] {svc : AuthService J}

/-- The call's step of the token manager that writes. -/
def ServiceCall.tokenCall (now : Int) : ServiceCall U → Option JwtEvent
  | .changeRevoke userId _ _ => some ⟨now, .revokeAllForUser userId⟩
  | _ => none

def AccountCall.tokenCall (now : Int) : AccountCall U → Option JwtEvent
  | .service call => call.tokenCall now
  | .sessionLogin call => call.tokenCall now
  | .deleteRevoke userId => (parseStr userId : Option U).map (fun _ => ⟨now, .revokeAllForUser userId⟩)
  | .logoutRevoke sessionId => some ⟨now, .revokeSession (toText sessionId)⟩
  | _ => none

/-- What an event makes of the token manager. -/
def AccountEvent.tokenCall (p : AccountPool U P) : AccountEvent U → Option JwtEvent
  | .spawn _ => none
  | .step i input => (p.threads[i]?).bind (AccountCall.tokenCall input.now)
  | .env e => some e

/-- The records after a call of the token manager, if there is one. -/
def recordsAfter (svc : AuthService J) (b : MemoryRevocationBackend) : Option JwtEvent → MemoryRevocationBackend
  | some e => (jwtMachine MemoryRevocationBackend svc.jwt).step b e
  | none => b

theorem service_records (input : ServiceInput U) (w : ServiceState U P) (call : ServiceCall U) :
    (svc.next w input call).1.revocation = recordsAfter svc w.revocation (call.tokenCall input.now) := by
  have hregister : call.Registers → (svc.next w input call).1.revocation = w.revocation := by
    intro hcall
    have heffect := register_effect svc input w hcall
    generalize svc.next w input call = result at heffect
    cases heffect <;> rfl
  have hlogin : call.LogsInOrChanges → (∀ userId uid newHash, call ≠ .changeRevoke userId uid newHash) →
      (svc.next w input call).1.revocation = w.revocation := by
    intro hcall hother
    have heffect := login_effect svc input w hcall
    generalize svc.next w input call = result at heffect
    cases heffect with
    | revoked userId uid newHash revocation hrevoke => exact absurd hrevoke (hother userId uid newHash)
    | revokePanicked userId uid newHash revocation hrevoke => exact absurd hrevoke (hother userId uid newHash)
    | _ => rfl
  cases call with
  | changeRevoke userId uid newHash =>
    unfold AuthService.next AuthService.changeRevokeStep
    dsimp only
    split <;> rename_i revocation hrevoke
    · exact (congrArg Prod.snd hrevoke).symm
    · exact (congrArg Prod.snd hrevoke).symm
  | registerAdmit => exact hregister trivial
  | registerFind => exact hregister trivial
  | registerLatch => exact hregister trivial
  | registerCount => exact hregister trivial
  | registerCreate => exact hregister trivial
  | registerAssign => exact hregister trivial
  | _ => exact hlogin trivial nofun

/-- A login with a session goes as a login, but for its issue. -/
theorem sessionLogin_cases (svc : AuthService J) (input : AccountInput U) (w : ServiceState U P) (call : ServiceCall U) :
    (∃ user roles permissions, call = .loginIssue user roles permissions) ∨
      (AccountCall.sessionLogin call).next svc w input = serviceStep svc w input .sessionLogin call := by
  cases call with
  | loginIssue user roles permissions => exact Or.inl ⟨user, roles, permissions, rfl⟩
  | _ => exact Or.inr rfl

/-- **A call's step writes the records by its call of the token manager**, or not at all. -/
theorem next_records (input : AccountInput U) (w : ServiceState U P) (call : AccountCall U) :
    (call.next svc w input).1.revocation = recordsAfter svc w.revocation (call.tokenCall input.now) := by
  cases call with
  | service call => exact service_records input.toServiceInput w call
  | sessionLogin call =>
    rcases sessionLogin_cases svc input w call with ⟨user, roles, permissions, rfl⟩ | hstep
    · unfold AccountCall.next sessionLoginStep
      dsimp only
      split <;> rfl
    · rw [hstep]
      exact service_records input.toServiceInput w call
  | sessionIssue user roles permissions sessionId =>
    unfold AccountCall.next sessionIssueStep
    dsimp only
    split <;> rfl
  | deleteRevoke userId =>
    unfold AccountCall.next deleteRevokeStep AccountCall.tokenCall
    dsimp only
    cases (parseStr userId : Option U) with
    | none => rfl
    | some uid =>
      dsimp only
      split <;> rename_i revocation hrevoke
      · exact (congrArg Prod.snd hrevoke).symm
      · exact (congrArg Prod.snd hrevoke).symm
  | deleteRemove uid =>
    unfold AccountCall.next deleteRemoveStep
    dsimp only
    split <;> rfl
  | logoutRevoke sessionId =>
    unfold AccountCall.next logoutRevokeStep
    dsimp only
    split <;> rename_i revocation hrevoke
    · exact (congrArg Prod.snd hrevoke).symm
    · exact (congrArg Prod.snd hrevoke).symm
  | logoutDestroy =>
    unfold AccountCall.next logoutDestroyStep
    dsimp only
    split <;> rfl
  | returned => rfl

theorem step_records (p : AccountPool U P) (e : AccountEvent U) :
    ((accountMachine svc).step p e).shared.revocation = recordsAfter svc p.shared.revocation (e.tokenCall p) := by
  cases e with
  | spawn call => rfl
  | env e => rfl
  | step i input =>
    have hevent : AccountEvent.tokenCall p (.step i input) = (p.threads[i]?).bind (AccountCall.tokenCall input.now) := rfl
    rw [hevent]
    cases hcall : p.threads[i]? with
    | none =>
      rw [((accountProgram svc).machine_step_none hcall input).1]
      rfl
    | some call =>
      rw [((accountProgram svc).machine_step hcall input).1]
      exact next_records input p.shared call

end Tokens

/-! ## A revoked token -/

section Clock
variable {U : Type}

/-- The instant an event reads. -/
def AccountEvent.now? : AccountEvent U → Option Int
  | .spawn _ => none
  | .step _ input => some input.now
  | .env e => some e.now

/-- The clock does not go back. -/
def ClockRises (es : List (AccountEvent U)) : Prop := es.Pairwise (fun e f => ∀ t ∈ e.now?, ∀ t' ∈ f.now?, t ≤ t')

/-- No event reads a later instant. -/
def NoneAfter (es : List (AccountEvent U)) (now : Int) : Prop := ∀ e ∈ es, ∀ t ∈ e.now?, t ≤ now

theorem ClockRises.le {es : List (AccountEvent U)} (h : ClockRises es) {j r : Nat} (hlt : j < r) {e f : AccountEvent U}
    (he : es[j]? = some e) (hf : es[r]? = some f) {t t' : Int} (ht : e.now? = some t) (ht' : f.now? = some t') : t ≤ t' := by
  obtain ⟨hj, rfl⟩ := List.getElem?_eq_some_iff.1 he
  obtain ⟨hr, rfl⟩ := List.getElem?_eq_some_iff.1 hf
  exact List.pairwise_iff_getElem.1 h j r hj hr hlt t ht t' ht'

/-- A call that revokes does so at the instant it reads; no call asks for a cleanup. -/
theorem tokenCall_cases [UuidText U] {call : AccountCall U} {instant : Int} {t : JwtEvent} (h : call.tokenCall instant = some t) :
    t.now = instant ∧ ∀ life, t.call ≠ .cleanupRevocation life := by
  have hservice : ∀ call : ServiceCall U, call.tokenCall instant = some t →
      t.now = instant ∧ ∀ life, t.call ≠ .cleanupRevocation life := by
    intro call hcall
    cases call with
    | changeRevoke =>
      obtain rfl := Option.some.inj hcall
      exact ⟨rfl, nofun⟩
    | _ => cases hcall
  cases call with
  | service call => exact hservice call h
  | sessionLogin call => exact hservice call h
  | deleteRevoke userId =>
    obtain ⟨-, -, rfl⟩ := Option.map_eq_some_iff.1 h
    exact ⟨rfl, nofun⟩
  | logoutRevoke sessionId =>
    obtain rfl := Option.some.inj h
    exact ⟨rfl, nofun⟩
  | _ => cases h

end Clock

section Sweeps
variable {J : JwtCrate} {U P : Type} [UuidText U] {svc : AuthService J} {e : AccountEvent U} {t : JwtEvent}

/-- The sweep that the event makes of the records, if any, drops none that may still refuse a token that verifies. -/
def SafeSweep (svc : AuthService J) (p : AccountPool U P) (e : AccountEvent U) : Prop :=
  ∀ t ∈ e.tokenCall p, SafePrune svc.jwt.lifetimeSecs p.shared.revocation t

theorem now?_of_tokenCall {p : AccountPool U P} (h : t ∈ e.tokenCall p) : e.now? = some t.now := by
  cases e with
  | spawn call => cases h
  | env e' => exact congrArg (Option.map JwtEvent.now) h
  | step i input =>
    obtain ⟨call, -, ht⟩ := Option.bind_eq_some_iff.1 h
    exact congrArg some (tokenCall_cases ht).1.symm

/-- **Sweeps with the leeway as a margin are safe**: a lifetime below the window by more than the leeway, and cleanups of
the host that are given the leeway on top of it. -/
theorem safeSweep_of_margin {p : AccountPool U P}
    (hlife : svc.jwt.lifetimeSecs + Auth.validationLeeway < Auth.revocationAutoCleanupWindowSecs)
    (hhost : ∀ t life, e = .env t → t.call = .cleanupRevocation life → svc.jwt.lifetimeSecs + Auth.validationLeeway ≤ life) :
    SafeSweep svc p e := by
  intro t ht
  refine Auth.safePrune_of_margin hlife (fun life hcleanup => ?_)
  cases e with
  | spawn call => cases ht
  | env e' => exact hhost t life (congrArg PoolEvent.env (Option.some.inj ht)) hcleanup
  | step i input =>
    obtain ⟨call, -, hcall⟩ := Option.bind_eq_some_iff.1 ht
    exact absurd hcleanup ((tokenCall_cases hcall).2 life)

end Sweeps

section Revoked
variable {J : JwtCrate} {U P : Type} [UuidText U] [DecidableEq U] {svc : AuthService J} {p₀ : AccountPool U P}
variable {es : List (AccountEvent U)} {r : Nat} {e : AccountEvent U} {t : JwtEvent} {now : Int}

/-- **A token revoked at an event is refused at the end of the run**, as long as the sweeps are safe. -/
theorem refused_of_revoked (hsafe : (accountMachine svc).Along (SafeSweep svc) p₀ es) (hclock : ClockRises es)
    (he : es[r]? = some e) (ht : t ∈ e.tokenCall ((accountMachine svc).run p₀ (es.take r))) {c : Claims}
    (hrevokes : Revokes c t) (hiat : c.iat ≤ t.now) (hnow : NoneAfter es now) :
    Auth.Refused c svc.jwt.lifetimeSecs ((accountMachine svc).run p₀ es).shared.revocation now := by
  have hlt : r < es.length := (List.getElem?_eq_some_iff.1 he).1
  have hmono : ∀ {b : MemoryRevocationBackend} {u : JwtEvent}, u.now ≤ now →
      Auth.Refused c svc.jwt.lifetimeSecs b u.now → Auth.Refused c svc.jwt.lifetimeSecs b now :=
    fun hle h => h.imp_right (fun hpast => hpast.trans_le hle)
  have hkept := (accountMachine svc).run_invariant_between
    (fun p => Auth.Refused c svc.jwt.lifetimeSecs p.shared.revocation now) p₀ es (Nat.succ_le_of_lt hlt) ?start ?step
  case start =>
    rw [(accountMachine svc).run_take_succ p₀ he, step_records, Option.mem_def.1 ht]
    exact hmono (hnow e (List.mem_of_getElem? he) _ (now?_of_tokenCall ht)) (Auth.refused_of_revokes hrevokes hiat)
  case step =>
    intro q f hrq _ hf h
    rw [step_records]
    cases hu : f.tokenCall ((accountMachine svc).run p₀ (es.take q)) with
    | none => exact h
    | some u =>
      have hle : u.now ≤ now := hnow f (List.mem_of_getElem? hf) _ (now?_of_tokenCall hu)
      rcases h with hrecorded | hpast
      · -- the event comes after the revocation, and so after the issue
        have hafter : t.now ≤ u.now := hclock.le hrq he hf (now?_of_tokenCall ht) (now?_of_tokenCall hu)
        have hsweep := (accountMachine svc).along_getElem? _ p₀ es hsafe q f hf u hu
        exact hmono hle (Auth.refused_step hsweep (hiat.trans hafter) (Or.inl hrecorded))
      · exact Or.inr hpast
  rwa [List.take_length] at hkept

/-- **A token issued before its revocation is not accepted.** -/
theorem not_accepted_of_revoked (hJ : J.Lawful) (hsafe : (accountMachine svc).Along (SafeSweep svc) p₀ es)
    (hclock : ClockRises es) (he : es[r]? = some e) (ht : t ∈ e.tokenCall ((accountMachine svc).run p₀ (es.take r)))
    {iat : Int} {request : JwtManager.IssueRequest} {token : String}
    (hissue : svc.jwt.issueWithOptions iat request = .ok token) (hrevokes : Revokes (svc.jwt.issueClaims iat request) t)
    (hiat : iat ≤ t.now) (hnow : NoneAfter es now) (claims : Claims) :
    svc.verifyToken ((accountMachine svc).run p₀ es).shared now token ≠ .ok claims :=
  Auth.not_accepted_of_refused hJ hissue (refused_of_revoked hsafe hclock he ht hrevokes hiat hnow) claims

end Revoked

end Service
end Kirino
