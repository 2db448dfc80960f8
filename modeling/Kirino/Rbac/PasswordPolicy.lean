import Kirino.Auth.StaticPassword
import Kirino.Lib.Entries
import Kirino.Lib.HashMap
/-!
# PasswordPolicy — when a password must be changed (`rbac/policy.rs`)

An account's state says when its password was set and whether it is still the one handed out.  A login asks the policy
about the recorded state: over any run it is let on exactly when the last recorded state is acceptable, to the
nanosecond of the last whole day, and a required change stays required, for the same reason, until a new state is
recorded (`requirement_exact`).  Instants are nanoseconds from the epoch.
-/
namespace Kirino
namespace Rbac

open Lib (HashMap Machine)

inductive PasswordChangeReason where
  | initialPassword
  | expired (ageDays maxAgeDays : UInt32)
deriving DecidableEq

namespace PasswordChangeReason

def asStr : PasswordChangeReason → String
  | initialPassword => "initial_password"
  | expired _ _ => "expired"

end PasswordChangeReason

structure PasswordState where
  isInitial : Bool
  changedAt : Int
deriving DecidableEq

structure PasswordPolicy where
  enabled : Bool
  forceChangeOnFirstLogin : Bool
  maxAgeDays : Option UInt32
deriving DecidableEq

def nanosPerDay : Nat := 86400 * 10 ^ 9

namespace PasswordState

def initial (changedAt : Int) : PasswordState := ⟨true, changedAt⟩

def rotated (changedAt : Int) : PasswordState := ⟨false, changedAt⟩

/-- The whole days since the password was set. -/
def ageDays (state : PasswordState) (now : Int) : UInt32 :=
  let days := (max ((now - state.changedAt).tdiv nanosPerDay) 0).toNat
  if days < 2 ^ 32 then UInt32.ofNat days else UInt32.ofNat (2 ^ 32 - 1)

end PasswordState

namespace PasswordPolicy

def new (forceChangeOnFirstLogin : Bool) (maxAgeDays : Option UInt32) : PasswordPolicy :=
  ⟨true, forceChangeOnFirstLogin, maxAgeDays⟩

def changeRequirement (policy : PasswordPolicy) (state : PasswordState) (now : Int) : Option PasswordChangeReason :=
  if !policy.enabled then none
  else if policy.forceChangeOnFirstLogin && state.isInitial then some .initialPassword
  else
    match policy.maxAgeDays with
    | some maxAgeDays =>
      let ageDays := state.ageDays now
      if maxAgeDays ≤ ageDays then some (.expired ageDays maxAgeDays) else none
    | none => none

end PasswordPolicy

/-! ## One decision -/

/-- The day of a maximum has come exactly when that many whole days have gone by. -/
theorem le_ageDays_iff {maxAgeDays : UInt32} {state : PasswordState} {now : Int} :
    maxAgeDays ≤ state.ageDays now ↔ maxAgeDays = 0 ∨ (maxAgeDays.toNat * nanosPerDay : Int) ≤ now - state.changedAt := by
  have hmax : maxAgeDays.toNat < 2 ^ 32 := maxAgeDays.toNat_lt
  have hzero : maxAgeDays = 0 ↔ maxAgeDays.toNat = 0 := by
    rw [← UInt32.toNat_inj]
    rfl
  rw [UInt32.le_iff_toNat_le, hzero]
  have hage : (state.ageDays now).toNat = min ((now - state.changedAt).tdiv nanosPerDay).toNat (2 ^ 32 - 1) := by
    unfold PasswordState.ageDays
    dsimp only
    have hdays : (max ((now - state.changedAt).tdiv nanosPerDay) 0).toNat =
        ((now - state.changedAt).tdiv nanosPerDay).toNat := by omega
    rw [hdays]
    split
    · next hlt => rw [UInt32.toNat_ofNat_of_lt' hlt]; omega
    · next hge => rw [UInt32.toNat_ofNat_of_lt' (by decide)]; omega
  rw [hage]
  unfold nanosPerDay
  rcases Int.lt_or_le (now - state.changedAt) 0 with hneg | hpos
  · -- an instant ahead of the clock is no day old
    have hsign : (now - state.changedAt).tdiv (86400 * 10 ^ 9 : Nat) = -(state.changedAt - now).tdiv (86400 * 10 ^ 9 : Nat) := by
      rw [← Int.neg_tdiv, Int.neg_sub]
    have hnonneg := Int.tdiv_nonneg (a := state.changedAt - now) (b := (86400 * 10 ^ 9 : Nat)) (by omega) (by omega)
    omega
  · rw [Int.tdiv_eq_ediv_of_nonneg hpos]
    omega

/-- The state lets its account on: the policy is off, or the password is not the one handed out where that one must be
changed, and is younger than the maximum. -/
def Acceptable (policy : PasswordPolicy) (state : PasswordState) (now : Int) : Prop :=
  policy.enabled = true → ¬ (policy.forceChangeOnFirstLogin = true ∧ state.isInitial = true) ∧
    ∀ maxAgeDays, policy.maxAgeDays = some maxAgeDays →
      maxAgeDays ≠ 0 ∧ now - state.changedAt < maxAgeDays.toNat * nanosPerDay

variable {policy : PasswordPolicy} {state : PasswordState} {now now' : Int} {reason : PasswordChangeReason}

theorem changeRequirement_eq_none_iff : policy.changeRequirement state now = none ↔ Acceptable policy state now := by
  unfold PasswordPolicy.changeRequirement Acceptable
  cases policy.enabled with
  | false => simp
  | true =>
    by_cases hfirst : policy.forceChangeOnFirstLogin = true ∧ state.isInitial = true
    · simp [hfirst.1, hfirst.2]
    · have hno : (policy.forceChangeOnFirstLogin && state.isInitial) = false := by
        rw [Bool.eq_false_iff, ne_eq, Bool.and_eq_true]
        exact hfirst
      simp only [Bool.not_true, Bool.false_eq_true, if_false, hno, hfirst, not_false_eq_true, true_and, forall_const]
      cases policy.maxAgeDays with
      | none => simp
      | some maxAgeDays =>
        simp only [ite_eq_right_iff, reduceCtorEq, imp_false, le_ageDays_iff, not_or, Option.some.injEq, forall_eq',
          Int.not_le, ne_eq]

/-- **A requirement does not lapse**: what must be changed must be changed later, for the same reason. -/
theorem changeRequirement_later (hle : now ≤ now') (h : policy.changeRequirement state now = some reason) :
    ∃ reason', policy.changeRequirement state now' = some reason' ∧ reason'.asStr = reason.asStr := by
  unfold PasswordPolicy.changeRequirement at h ⊢
  split at h
  · cases h
  · rename_i hon
    rw [if_neg hon]
    split at h
    · rename_i hfirst
      rw [if_pos hfirst]
      exact ⟨_, rfl, by rw [← Option.some.inj h]⟩
    · rename_i hfirst
      rw [if_neg hfirst]
      cases hmax : policy.maxAgeDays with
      | none =>
        rw [hmax] at h
        cases h
      | some maxAgeDays =>
        rw [hmax] at h
        dsimp only at h ⊢
        split at h
        · rename_i hold
          have hold' : maxAgeDays ≤ state.ageDays now' := by
            rw [le_ageDays_iff] at hold ⊢
            exact hold.imp_right (fun hold => by omega)
          rw [if_pos hold']
          exact ⟨_, rfl, by rw [← Option.some.inj h]; rfl⟩
        · cases h

/-! ## The first password -/

structure BootstrapCredential where
  username : String
  password : String
  state : PasswordState

def bootstrapCredential (rng : Nat → Nat) (username : String) (now : Int) : BootstrapCredential :=
  ⟨username, Auth.generateTemporaryPassword rng, .initial now⟩

/-- **The password handed out passes the policy on passwords, and must be changed at any login.** -/
theorem bootstrapCredential_spec (rng : Nat → Nat) (username : String) (maxAgeDays : Option UInt32) (now now' : Int) :
    Service.validatePassword .ascii (bootstrapCredential rng username now).password = .ok () ∧
      (PasswordPolicy.new true maxAgeDays).changeRequirement (bootstrapCredential rng username now).state now' =
        some .initialPassword :=
  ⟨(Auth.validatePassword_generated ⟨fun _ _ => rfl, fun _ _ => rfl, fun _ _ => rfl⟩ rng), rfl⟩

/-! ## The recorded states -/

inductive PolicyOp (U : Type) where
  | put (account : U) (state : PasswordState)
  | login (account : U)

/-- A call with the instant of the service's clock. -/
structure PolicyEvent (U : Type) where
  now : Int
  op : PolicyOp U

inductive PolicyAnswer where
  | stored
  | untracked
  | requirement (reason : Option PasswordChangeReason)
deriving DecidableEq

namespace InMemoryPasswordStateStore

variable {U : Type} [DecidableEq U]

abbrev States (U : Type) := HashMap U PasswordState

def get (states : States U) (account : U) : Option PasswordState := states.get? account

def put (states : States U) (account : U) (state : PasswordState) : States U := states.insert account state

/-- A login asks the policy about the recorded state, where there is one. -/
def policyMachine (U : Type) [DecidableEq U] (policy : PasswordPolicy) : Machine (States U) (PolicyEvent U) PolicyAnswer where
  step states event :=
    match event.op with
    | .put account state => put states account state
    | .login _ => states
  out states event :=
    match event.op with
    | .put _ _ => .stored
    | .login account =>
      match get states account with
      | some state => .requirement (policy.changeRequirement state event.now)
      | none => .untracked

/-- The last state recorded for the account before event `k`. -/
def LastRecorded (events : List (PolicyEvent U)) (k : Nat) (account : U) (state : PasswordState) : Prop :=
  ∃ i event, i < k ∧ events[i]? = some event ∧ event.op = .put account state ∧
    ∀ j f, i < j → j < k → events[j]? = some f → ∀ state', f.op ≠ .put account state'

variable {policy : PasswordPolicy} {events : List (PolicyEvent U)} {k : Nat} {account : U}

theorem get_iff_lastRecorded (policy : PasswordPolicy) {state : PasswordState} :
    get ((policyMachine U policy).run HashMap.empty (events.take k)) account = some state ↔
      LastRecorded events k account state := by
  have hstep : ∀ (states : States U) (event : PolicyEvent U) (record : U × PasswordState),
      get ((policyMachine U policy).step states event) record.1 = some record.2 ↔
        event.op = .put record.1 record.2 ∨
          get states record.1 = some record.2 ∧ ¬ ∃ state', event.op = .put record.1 state' := by
    rintro states ⟨now, op⟩ ⟨account, state⟩
    cases op with
    | put account' state' =>
      simp only [policyMachine, InMemoryPasswordStateStore.get, put, HashMap.get?_insert, PolicyOp.put.injEq]
      by_cases haccount : account = account'
      · simp [haccount]
      · simp [haccount, Ne.symm haccount]
    | login account' => simp [policyMachine]
  refine (Lib.Entries.in_take_iff (M := policyMachine U policy)
    (fun states (record : U × PasswordState) => get states record.1 = some record.2)
    (fun _ event record => event.op = .put record.1 record.2)
    (fun event record => ∃ state', event.op = .put record.1 state') hstep (fun _ => by simp [InMemoryPasswordStateStore.get]) events k
    (account, state)).trans ?_
  simp only [LastRecorded, not_exists, ne_eq]

theorem outs_login {now : Int} (hk : events[k]? = some ⟨now, .login account⟩) :
    ((policyMachine U policy).outs HashMap.empty events)[k]? =
      some (match get ((policyMachine U policy).run HashMap.empty (events.take k)) account with
        | some state => .requirement (policy.changeRequirement state now)
        | none => .untracked) := by
  rw [Machine.outs_getElem?, hk]
  rfl

/-- **A login is let on exactly when the last recorded state is acceptable**, and an account is untracked exactly when no
state was recorded for it. -/
theorem requirement_exact (policy : PasswordPolicy) (events : List (PolicyEvent U)) (k : Nat) (now : Int) (account : U)
    (hk : events[k]? = some ⟨now, .login account⟩) :
    (((policyMachine U policy).outs HashMap.empty events)[k]? = some (.requirement none) ↔
      ∃ state, LastRecorded events k account state ∧ Acceptable policy state now) ∧
    (((policyMachine U policy).outs HashMap.empty events)[k]? = some .untracked ↔
      ∀ state, ¬ LastRecorded events k account state) ∧
    ∀ i now₀ reason, i < k → now₀ ≤ now → events[i]? = some ⟨now₀, .login account⟩ →
      ((policyMachine U policy).outs HashMap.empty events)[i]? = some (.requirement (some reason)) →
      (∀ j f, i < j → j < k → events[j]? = some f → ∀ state, f.op ≠ .put account state) →
      ∃ reason', ((policyMachine U policy).outs HashMap.empty events)[k]? = some (.requirement (some reason')) ∧
        reason'.asStr = reason.asStr := by
  rw [outs_login hk]
  refine ⟨?_, ?_, ?_⟩
  · simp only [← get_iff_lastRecorded policy, ← changeRequirement_eq_none_iff]
    cases get ((policyMachine U policy).run HashMap.empty (events.take k)) account <;> simp
  · simp only [← get_iff_lastRecorded policy]
    cases get ((policyMachine U policy).run HashMap.empty (events.take k)) account <;> simp
  · intro i now₀ reason hik hle hi hrequired hnone
    rw [outs_login hi] at hrequired
    cases hstate : get ((policyMachine U policy).run HashMap.empty (events.take i)) account with
    | none =>
      rw [hstate] at hrequired
      cases hrequired
    | some state =>
      rw [hstate] at hrequired
      have hreason : policy.changeRequirement state now₀ = some reason :=
        PolicyAnswer.requirement.inj (Option.some.inj hrequired)
      -- nothing is recorded for the account in between
      have hsame := (policyMachine U policy).run_invariant_between (fun states => get states account = some state)
        HashMap.empty events (Nat.le_of_lt hik) hstate (fun j f hij hjk hf h => by
          obtain ⟨now, op⟩ := f
          cases op with
          | login account' => exact h
          | put account' state' =>
            rcases Nat.eq_or_lt_of_le hij with rfl | hij
            · cases hi.symm.trans hf
            · have hne : account ≠ account' := by
                rintro rfl
                exact hnone j _ hij hjk hf state' rfl
              exact (HashMap.get?_insert_of_ne _ _ hne).trans h)
      obtain ⟨reason', hlater, hkind⟩ := changeRequirement_later hle hreason
      exact ⟨reason', by simp only [hsame, hlater], hkind⟩

/-- A password handed out is refused at every login until another is recorded, and that one for ninety days. -/
def rotatedPassword : List (PolicyEvent String) :=
  [⟨0, .put "admin" (.initial 0)⟩, ⟨1, .login "admin"⟩, ⟨2, .put "admin" (.rotated 2)⟩, ⟨3, .login "admin"⟩]

theorem requirement_exact_rotated :
    ((policyMachine String (.new true (some 90))).outs HashMap.empty rotatedPassword)[3]? =
      some (.requirement none) := by
  refine (requirement_exact (.new true (some 90)) rotatedPassword 3 3 "admin" rfl).1.2
    ⟨.rotated 2, ⟨2, _, by decide, rfl, rfl, fun j f hj hk => by omega⟩, ?_⟩
  rintro -
  refine ⟨by decide, fun maxAgeDays hmax => ?_⟩
  cases hmax
  decide

end InMemoryPasswordStateStore

end Rbac
end Kirino
