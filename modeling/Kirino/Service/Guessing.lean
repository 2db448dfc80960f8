import Kirino.Service.Login
import Kirino.Service.RateLimit
/-!
# Guessing — passwords tried against one account (`service/login/mod.rs`)

Registrations and logins run one after the other here, each as a whole, with the limiters that admit them.  A login counts
on the bucket of the name it presents, and a successful one clears that bucket; the names of several accounts may share a
bucket, since the table tells their case apart and the bucket does not.
-/
namespace Kirino
namespace Service

open Auth (JwtCrate)
open Lib (HashMap Machine Window WindowPolicy asciiLowercase)
open Lib.WindowPolicy (Within within_none countsAt)

/-- The service with its two limiters. -/
structure LimitedService (J : JwtCrate) where
  service : AuthService J
  rateLimiter : LoginRateLimiter
  registerRateLimiter : LoginRateLimiter

structure LimitedState (U P : Type) where
  service : ServiceState U P
  loginEntries : RateLimitEntries
  registerEntries : RateLimitEntries

inductive PasswordCall where
  | register (username password : String)
  | login (username password : String)
deriving DecidableEq, Repr

/-- A call, the instant of its attempt, and what its steps draw and are given. -/
structure PasswordEvent (U : Type) where
  now : Nat
  call : PasswordCall
  input : ServiceInput U
  inputs : List (ServiceInput U)

/-! ## The calls -/

section Calls
variable {J : JwtCrate} {U P : Type} [UuidText U] [DecidableEq U]

/-- The steps of a call from a place on, one after the other. -/
def AuthService.finish (svc : AuthService J) :
    List (ServiceInput U) → ServiceState U P → ServiceCall U → ServiceState U P × Option (ServiceAnswer U)
  | [], w, _ => (w, none)
  | input :: inputs, w, call =>
    match svc.next w input call with
    | (w, _, some answer) => (w, some answer)
    | (w, call, none) => svc.finish inputs w call

/-- The user that the name and the password prove. -/
def AuthService.authenticateUser (svc : AuthService J) (w : ServiceState U P) (input : ServiceInput U)
    (username password : String) : Except ServiceError (UserRecord U) :=
  match input.refused with
  | some e => .error e
  | none =>
    match w.users.findByUsername username with
    | none => .error .authenticationFailed
    | some user =>
      if !user.isActive then .error .authenticationFailed
      else
        match svc.hasher.verifyPassword password user.passwordHash with
        | .error e => .error (.other e)
        | .ok false => .error .authenticationFailed
        | .ok true => .ok user

namespace LimitedService
variable (svc : LimitedService J)

def register (w : LimitedState U P) (event : PasswordEvent U) (username password : String) :
    LimitedState U P × Option (ServiceAnswer U) :=
  match validateUsername username with
  | .error e => (w, some (.error e))
  | .ok username =>
    match validatePassword svc.service.classes password with
    | .error e => (w, some (.error e))
    | .ok () =>
      match svc.registerRateLimiter.checkAndRecordFailure w.registerEntries username event.now with
      | (registerEntries, .error e) => ({ w with registerEntries }, some (.error e))
      | (registerEntries, .ok ()) =>
        match svc.service.finish event.inputs w.service (.registerFind username password) with
        | (service, some (.ok reply)) =>
          ({ w with service, registerEntries := svc.registerRateLimiter.reset registerEntries username }, some (.ok reply))
        | (service, answer) => ({ w with service, registerEntries }, answer)

def login (w : LimitedState U P) (event : PasswordEvent U) (username password : String) :
    LimitedState U P × Option (ServiceAnswer U) :=
  if !svc.service.passwordLoginEnabled then
    (w, some (.error (.validation "password login is disabled by policy; sign in with a third-party identity provider")))
  else
    let username := trim username
    match svc.rateLimiter.checkAndRecordFailure w.loginEntries username event.now with
    | (loginEntries, .error e) => ({ w with loginEntries }, some (.error e))
    | (loginEntries, .ok ()) =>
      match svc.service.authenticateUser w.service event.input username password with
      | .error e => ({ w with loginEntries }, some (.error e))
      | .ok user =>
        let (service, answer) := svc.service.finish event.inputs w.service (.loginRoles user)
        ({ w with service, loginEntries := svc.rateLimiter.reset loginEntries username }, answer)

def call (w : LimitedState U P) (event : PasswordEvent U) : LimitedState U P × Option (ServiceAnswer U) :=
  match event.call with
  | .register username password => svc.register w event username password
  | .login username password => svc.login w event username password

def machine : Machine (LimitedState U P) (PasswordEvent U) (Option (ServiceAnswer U)) where
  step w event := (svc.call w event).1
  out w event := (svc.call w event).2

/-! ## Guesses -/

/-- The login verifies a password against the hash that is stored under the name. -/
def verifiesAgainst (w : LimitedState U P) (event : PasswordEvent U) (name : String) : Bool :=
  match event.call with
  | .register _ _ => false
  | .login username _ =>
    svc.service.passwordLoginEnabled && decide (trim username = name) &&
      (svc.rateLimiter.checkAndRecordFailure w.loginEntries (trim username) event.now).2.isOk &&
        event.input.refused.isNone && (w.service.users.findByUsername name).isSome

/-- The login presents the name of an active account and its password. -/
def presentsPassword (w : LimitedState U P) (event : PasswordEvent U) (name : String) : Bool :=
  match event.call with
  | .register _ _ => false
  | .login username password =>
    decide (trim username = name) &&
      match w.service.users.findByUsername name with
      | none => false
      | some user =>
        user.isActive && decide (svc.service.hasher.verifyPassword password user.passwordHash = .ok true)

/-- The verifications against the account in the interval of the length of a window. -/
def guessesIn (name : String) (begin : Nat) : LimitedState U P → List (PasswordEvent U) → Nat
  | _, [] => 0
  | w, e :: es =>
    (if svc.verifiesAgainst w e name ∧ begin ≤ e.now ∧ e.now < begin + svc.rateLimiter.window then 1 else 0) +
      guessesIn name begin (svc.machine.step w e) es

/-- Two windows of guesses at most, in any interval of the length of one. -/
def GuessesBounded (name : String) (w : LimitedState U P) (es : List (PasswordEvent U)) : Prop :=
  ∀ begin, svc.guessesIn name begin w es ≤ 2 * svc.rateLimiter.maxAttempts

/-- The account's own password is not presented. -/
def OwnerAway (name : String) (w : LimitedState U P) (e : PasswordEvent U) : Prop := svc.presentsPassword w e name = false

/-- A login of another account whose name has the same bucket does not present its password. -/
def SparesBucket (name : String) (w : LimitedState U P) (e : PasswordEvent U) : Prop :=
  match e.call with
  | .register _ _ => True
  | .login username _ =>
    trim username ≠ name → svc.rateLimiter.bucketKey (trim username) = svc.rateLimiter.bucketKey name →
      svc.presentsPassword w e (trim username) = false

instance (name : String) (w : LimitedState U P) (e : PasswordEvent U) : Decidable (svc.OwnerAway name w e) := by
  unfold OwnerAway
  infer_instance

instance (name : String) (w : LimitedState U P) (e : PasswordEvent U) : Decidable (svc.SparesBucket name w e) := by
  unfold SparesBucket
  split <;> infer_instance

end LimitedService
end Calls

/-! ## The bound -/

section Bound
variable {J : JwtCrate} {U P : Type} [UuidText U] [DecidableEq U] {svc : LimitedService J}

omit [UuidText U] [DecidableEq U] in
theorem authenticateUser_eq_ok {w : ServiceState U P} {input : ServiceInput U} {username password : String}
    {user : UserRecord U} (h : svc.service.authenticateUser w input username password = .ok user) :
    w.users.findByUsername username = some user ∧ user.isActive = true ∧
      svc.service.hasher.verifyPassword password user.passwordHash = .ok true := by
  unfold AuthService.authenticateUser at h
  split at h
  · cases h
  · cases hfind : w.users.findByUsername username with
    | none =>
      rw [hfind] at h
      cases h
    | some found =>
      rw [hfind] at h
      dsimp only at h
      split at h
      · cases h
      · rename_i hactive
        cases hverify : svc.service.hasher.verifyPassword password found.passwordHash with
        | error e =>
          rw [hverify] at h
          cases h
        | ok same =>
          rw [hverify] at h
          cases same with
          | false => cases h
          | true =>
            obtain rfl := Except.ok.inj h
            exact ⟨rfl, by simpa using hactive, hverify⟩

omit [UuidText U] [DecidableEq U] in
/-- **The steps of a login up to its verification** are the authentication. -/
theorem steps_of_authenticateUser (w : ServiceState U P) (input : ServiceInput U) (username password : String) :
    match svc.service.authenticateUser w input username password with
    | .ok user =>
      AuthService.loginFindStep w input username password = w.goOn (.loginVerify user password) ∧
        svc.service.loginVerifyStep w user password = w.goOn (.loginRoles user)
    | .error e =>
      AuthService.loginFindStep w input username password = w.fail e ∨
        ∃ user, AuthService.loginFindStep w input username password = w.goOn (.loginVerify user password) ∧
          svc.service.loginVerifyStep w user password = w.fail e := by
  unfold AuthService.authenticateUser AuthService.loginFindStep AuthService.loginVerifyStep
  cases input.refused with
  | some e => exact Or.inl rfl
  | none =>
    cases w.users.findByUsername username with
    | none => exact Or.inl rfl
    | some user =>
      dsimp only
      cases hactive : user.isActive with
      | false =>
        refine Or.inr ⟨user, rfl, ?_⟩
        rw [hactive]
        rfl
      | true =>
        cases hverify : svc.service.hasher.verifyPassword password user.passwordHash with
        | error e =>
          refine Or.inr ⟨user, rfl, ?_⟩
          rw [hactive, hverify]
          rfl
        | ok same =>
          cases same with
          | false =>
            refine Or.inr ⟨user, rfl, ?_⟩
            rw [hactive, hverify]
            rfl
          | true =>
            refine ⟨rfl, ?_⟩
            rw [hactive, hverify]
            rfl

/-- A registration leaves the buckets of the logins. -/
theorem loginEntries_register (w : LimitedState U P) (event : PasswordEvent U) (username password : String) :
    (svc.register w event username password).1.loginEntries = w.loginEntries := by
  unfold LimitedService.register
  split
  · rfl
  · split
    · rfl
    · split
      · rfl
      · split <;> rfl

variable (svc) in
/-- What a login does to the buckets: nothing, or an attempt on the bucket of its name, which a success clears. -/
theorem loginEntries_login (w : LimitedState U P) (event : PasswordEvent U) (username password : String) :
    (svc.service.passwordLoginEnabled = false ∧ (svc.login w event username password).1.loginEntries = w.loginEntries) ∨
      (svc.service.passwordLoginEnabled = true ∧
        ((svc.login w event username password).1.loginEntries =
            (svc.rateLimiter.checkAndRecordFailure w.loginEntries (trim username) event.now).1 ∨
          ((∃ user, w.service.users.findByUsername (trim username) = some user ∧ user.isActive = true ∧
              svc.service.hasher.verifyPassword password user.passwordHash = .ok true) ∧
            (svc.login w event username password).1.loginEntries = svc.rateLimiter.reset
              (svc.rateLimiter.checkAndRecordFailure w.loginEntries (trim username) event.now).1 (trim username)))) := by
  unfold LimitedService.login
  cases henabled : svc.service.passwordLoginEnabled with
  | false => exact Or.inl ⟨rfl, rfl⟩
  | true =>
    refine Or.inr ⟨rfl, ?_⟩
    simp only [Bool.not_true, Bool.false_eq_true, if_false]
    generalize svc.rateLimiter.checkAndRecordFailure w.loginEntries (trim username) event.now = checked
    obtain ⟨loginEntries, answer⟩ := checked
    cases answer with
    | error e => exact Or.inl rfl
    | ok u =>
      dsimp only
      cases hauth : svc.service.authenticateUser w.service event.input (trim username) password with
      | error e => exact Or.inl rfl
      | ok user => exact Or.inr ⟨⟨user, authenticateUser_eq_ok hauth⟩, rfl⟩

variable (h : svc.rateLimiter.Counts)

/-- The window of the account's bucket bounds the guesses since the beginning of the interval. -/
def Guessed (name : String) (begin : Nat) (w : LimitedState U P) (last c : Nat) : Prop :=
  ∃ window counted, c ≤ counted ∧ Within (LoginRateLimiter.windowPolicy h) begin window last counted ∧
    Tracks (LoginRateLimiter.windowPolicy h) last (w.loginEntries.get? (svc.rateLimiter.bucketKey name)) window

omit [UuidText U] [DecidableEq U] in
theorem presentsPassword_of_user {w : LimitedState U P} {e : PasswordEvent U} {username password : String}
    {user : UserRecord U} (hcall : e.call = .login username password)
    (hfind : w.service.users.findByUsername (trim username) = some user) (hactive : user.isActive = true)
    (hverify : svc.service.hasher.verifyPassword password user.passwordHash = .ok true) :
    svc.presentsPassword w e (trim username) = true := by
  unfold LimitedService.presentsPassword
  rw [hcall]
  simp only [hfind, hactive, hverify, decide_true, Bool.and_self]

omit [UuidText U] [DecidableEq U] in
theorem not_verifiesAgainst_of_ne {w : LimitedState U P} {e : PasswordEvent U} {username password name : String}
    (hcall : e.call = .login username password) (hne : trim username ≠ name) : svc.verifiesAgainst w e name = false := by
  unfold LimitedService.verifiesAgainst
  rw [hcall]
  simp only [decide_eq_false hne, Bool.and_false, Bool.false_and]

omit [UuidText U] [DecidableEq U] in
theorem not_verifiesAgainst_of_disabled {w : LimitedState U P} {e : PasswordEvent U} {username password : String}
    (hcall : e.call = .login username password) (hoff : svc.service.passwordLoginEnabled = false) (name : String) :
    svc.verifiesAgainst w e name = false := by
  unfold LimitedService.verifiesAgainst
  rw [hcall]
  simp only [hoff, Bool.false_and]

omit [UuidText U] [DecidableEq U] in
/-- What a call that is no guess keeps, when it leaves the bucket tracked. -/
theorem guessed_of_no_guess {name : String} {begin last c : Nat} {w w' : LimitedState U P} {e : PasswordEvent U}
    (hw : Guessed h name begin w last c) (hlast : last ≤ e.now) (hno : svc.verifiesAgainst w e name = false)
    (htracked : ∀ window, Tracks (LoginRateLimiter.windowPolicy h) last
      (w.loginEntries.get? (svc.rateLimiter.bucketKey name)) window → Tracks (LoginRateLimiter.windowPolicy h) e.now
        (w'.loginEntries.get? (svc.rateLimiter.bucketKey name)) window) :
    Guessed h name begin w' e.now
      (c + if svc.verifiesAgainst w e name ∧ begin ≤ e.now ∧ e.now < begin + svc.rateLimiter.window then 1 else 0) := by
  obtain ⟨window, counted, hc, hwithin, htracks⟩ := hw
  refine ⟨window, counted, ?_, hwithin.wait hlast, htracked window htracks⟩
  rw [hno]
  simpa using hc

omit [UuidText U] [DecidableEq U] in
/-- A guess is an attempt that the limiter allows. -/
theorem refuses_of_verifiesAgainst {name : String} {w : LimitedState U P} {e : PasswordEvent U}
    {username password : String} {window : Option Window} (hcall : e.call = .login username password)
    (hanswer : (svc.rateLimiter.checkAndRecordFailure w.loginEntries (trim username) e.now).2 =
      LoginRateLimiter.answerOf h window e.now) (hverifies : svc.verifiesAgainst w e name = true) :
    (LoginRateLimiter.windowPolicy h).refuses window e.now = none := by
  unfold LimitedService.verifiesAgainst at hverifies
  rw [hcall] at hverifies
  simp only [Bool.and_eq_true, hanswer] at hverifies
  cases hrefuses : (LoginRateLimiter.windowPolicy h).refuses window e.now with
  | none => rfl
  | some remaining =>
    rw [LoginRateLimiter.answerOf_of_some h hrefuses] at hverifies
    exact nomatch hverifies.1.1.2

/-- What a login does to the bucket of the account, when no success clears it. -/
theorem guessed_login {name : String} {begin last c : Nat} {w : LimitedState U P} {e : PasswordEvent U}
    {username password : String} (hcall : e.call = .login username password) (hw : Guessed h name begin w last c)
    (hlast : last ≤ e.now) (howner : svc.OwnerAway name w e) (hspares : svc.SparesBucket name w e) :
    Guessed h name begin (svc.machine.step w e) e.now
      (c + if svc.verifiesAgainst w e name ∧ begin ≤ e.now ∧ e.now < begin + svc.rateLimiter.window then 1 else 0) := by
  have hstep : (svc.machine.step w e).loginEntries = (svc.login w e username password).1.loginEntries := by
    show (svc.call w e).1.loginEntries = _
    unfold LimitedService.call
    rw [hcall]
  by_cases hb : svc.rateLimiter.bucketKey (trim username) = svc.rateLimiter.bucketKey name
  · -- no success of this bucket: the account's own is away, and the others are spared
    have hnosuccess : svc.presentsPassword w e (trim username) = false := by
      by_cases hname : trim username = name
      · rw [hname]
        exact howner
      · unfold LimitedService.SparesBucket at hspares
        rw [hcall] at hspares
        exact hspares hname hb
    rcases loginEntries_login svc w e username password with ⟨hoff, hsame⟩ | ⟨-, hcount | ⟨⟨user, hsuccess⟩, -⟩⟩
    · refine guessed_of_no_guess h hw hlast (not_verifiesAgainst_of_disabled hcall hoff name) (fun window htracks => ?_)
      rw [hstep, hsame]
      exact htracks.wait hlast
    · obtain ⟨window, counted, hc, hwithin, htracks⟩ := hw
      have hnow := htracks.wait hlast
      rw [← hb] at hnow
      obtain ⟨hanswer, hentry⟩ := LoginRateLimiter.check_spec h hnow
      refine ⟨_, _, ?_, hwithin.attempt hlast, ?_⟩
      · refine Nat.add_le_add hc ?_
        unfold countsAt
        split
        · rename_i hguess
          rw [if_pos ⟨refuses_of_verifiesAgainst h hcall hanswer hguess.1, hguess.2⟩]
        · exact Nat.zero_le _
      · rw [hstep, hcount, ← hb, hentry]
        exact ⟨rfl, ((hwithin.attempt hlast).started _ rfl).1⟩
    · rw [presentsPassword_of_user hcall hsuccess.1 hsuccess.2.1 hsuccess.2.2] at hnosuccess
      cases hnosuccess
  · have hne : trim username ≠ name := fun hname => hb (congrArg _ hname)
    refine guessed_of_no_guess h hw hlast (not_verifiesAgainst_of_ne hcall hne) (fun window htracks => ?_)
    have hnow := htracks.wait hlast
    have hother := LoginRateLimiter.check_other h hb hnow
    rw [hstep]
    rcases loginEntries_login svc w e username password with ⟨-, hsame⟩ | ⟨-, hcount | ⟨-, hcleared⟩⟩
    · rw [hsame]
      exact hnow
    · rw [hcount]
      exact hother
    · rw [hcleared]
      unfold LoginRateLimiter.reset
      rw [h.enabled, if_neg (by decide), HashMap.get?_remove, if_neg (Ne.symm hb)]
      exact hother

theorem guessed_step {name : String} {begin last c : Nat} {w : LimitedState U P} {e : PasswordEvent U}
    (hw : Guessed h name begin w last c) (hlast : last ≤ e.now) (howner : svc.OwnerAway name w e)
    (hspares : svc.SparesBucket name w e) :
    Guessed h name begin (svc.machine.step w e) e.now
      (c + if svc.verifiesAgainst w e name ∧ begin ≤ e.now ∧ e.now < begin + svc.rateLimiter.window then 1 else 0) := by
  cases hcall : e.call with
  | login username password => exact guessed_login h hcall hw hlast howner hspares
  | register username password =>
    have hnone : svc.verifiesAgainst w e name = false := by
      unfold LimitedService.verifiesAgainst
      rw [hcall]
    refine guessed_of_no_guess h hw hlast hnone (fun window htracks => ?_)
    show Tracks _ _ ((svc.call w e).1.loginEntries.get? _) _
    unfold LimitedService.call
    rw [hcall]
    dsimp only
    rw [loginEntries_register]
    exact htracks.wait hlast

include h in
theorem guesses_le {name : String} {begin : Nat} : ∀ {es : List (PasswordEvent U)} {w : LimitedState U P} {last c : Nat},
    Guessed h name begin w last c → (∀ e ∈ es, last ≤ e.now) → es.Pairwise (fun e f => e.now ≤ f.now) →
      svc.machine.Along (fun w e => svc.OwnerAway name w e ∧ svc.SparesBucket name w e) w es →
        c + svc.guessesIn name begin w es ≤ 2 * svc.rateLimiter.maxAttempts
  | [], w, last, c, ⟨window, counted, hc, hwithin, _⟩, _, _, _ => by
    have hle : counted ≤ 2 * svc.rateLimiter.maxAttempts := hwithin.le
    exact Nat.le_trans hc hle
  | e :: es, w, last, c, hw, hlast, hes, halong => by
    obtain ⟨hfirst, hes⟩ := List.pairwise_cons.1 hes
    have hnext := guessed_step h hw (hlast e List.mem_cons_self) halong.1.1 halong.1.2
    have ih := guesses_le hnext hfirst hes halong.2
    rw [LimitedService.guessesIn, ← Nat.add_assoc]
    exact ih

/-- **Guesses are bounded** when no other account of the same bucket logs in: two windows at most, in any interval of the
length of one, whatever else is registered and logged in. -/
theorem guessesBounded (svc : LimitedService J) (h : svc.rateLimiter.Counts) (name : String) (w : LimitedState U P)
    (hempty : w.loginEntries = HashMap.empty) (es : List (PasswordEvent U)) (hes : es.Pairwise (fun e f => e.now ≤ f.now))
    (howner : svc.machine.Along (svc.OwnerAway name) w es) (hspares : svc.machine.Along (svc.SparesBucket name) w es) :
    svc.GuessesBounded name w es := by
  intro begin
  have hstart : Guessed h name begin w 0 0 := by
    refine ⟨none, 0, Nat.le_refl 0, within_none _ begin, ?_⟩
    rw [hempty]
    trivial
  have hboth := Machine.along_of_getElem? svc.machine (fun w e => svc.OwnerAway name w e ∧ svc.SparesBucket name w e) w es
    (fun j e he => ⟨Machine.along_getElem? _ _ _ _ howner j e he, Machine.along_getElem? _ _ _ _ hspares j e he⟩)
  have hle := guesses_le h hstart (fun _ _ => Nat.zero_le _) hes hboth
  rwa [Nat.zero_add] at hle

end Bound

/-! ## A name in two cases -/

def aliceClaims : Auth.Claims :=
  { sub := "Alice", userId := "u-2", roles := ["user"], permissions := [], sessionId := none, jti := some "jti", iat := 1000,
    exp := 1000 + 3600 }

/-- The service with the limits of its constructor. -/
def aliceService : LimitedService (Auth.tableJwt [("token-1", aliceClaims)]) where
  service := ⟨Auth.tableJwtManager [("token-1", aliceClaims)], plainHasher, .ascii, true, "admin", "user", false⟩
  rateLimiter := ⟨5, 300, 900, true, asciiLowercase⟩
  registerRateLimiter := ⟨3, 300, 1800, true, asciiLowercase⟩

/-- The account alice is there. -/
def aliceState : LimitedState String String :=
  ⟨⟨UserTable.new.insertNew ⟨"u-1", "alice", "Passw0rd-1", true⟩ rfl rfl, Rbac.InMemoryAssignmentStore.new, true,
    Auth.MemoryRevocationBackend.new⟩, HashMap.empty, HashMap.empty⟩

def aliceInput : ServiceInput String := ⟨1000, "u-2", "salt", "jti", [], none⟩

/-- The account Alice is made. -/
def registerVariant : PasswordEvent String := ⟨0, .register "Alice" "Passw0rd-2", aliceInput, List.replicate 4 aliceInput⟩

def guessAlice : PasswordEvent String := ⟨1, .login "alice" "Guess-1234", aliceInput, []⟩

def loginVariant : PasswordEvent String := ⟨1, .login "Alice" "Passw0rd-2", aliceInput, List.replicate 3 aliceInput⟩

/-- Four guesses at alice, and a login as Alice, three times over. -/
def variantRun : List (PasswordEvent String) :=
  registerVariant :: (List.replicate 3 (List.replicate 4 guessAlice ++ [loginVariant])).flatten

/-- **The login of the other case clears the bucket**: twelve guesses at one instant. -/
theorem variantRun_unbounded : aliceService.rateLimiter.Counts ∧ variantRun.Pairwise (fun e f => e.now ≤ f.now) ∧
    aliceService.machine.Along (aliceService.OwnerAway "alice") aliceState variantRun ∧
      ¬ aliceService.GuessesBounded "alice" aliceState variantRun := by
  refine ⟨⟨rfl, by decide, by decide⟩, by decide +kernel, by decide +kernel, fun h => ?_⟩
  have hguesses : aliceService.guessesIn "alice" 0 aliceState variantRun = 12 := by decide +kernel
  have hle := h 0
  rw [hguesses] at hle
  exact absurd hle (by decide)

theorem guessesBounded_alice :
    aliceService.GuessesBounded "alice" aliceState (registerVariant :: List.replicate 12 guessAlice) :=
  guessesBounded aliceService ⟨rfl, by decide, by decide⟩ "alice" aliceState rfl _ (by decide +kernel) (by decide +kernel)
    (by decide +kernel)

end Service
end Kirino
