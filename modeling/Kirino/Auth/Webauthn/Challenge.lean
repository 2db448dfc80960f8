import Mathlib.Algebra.Group.Nat.Defs
import Kirino.Lib.HashMap
import Kirino.Lib.StableSort
import Kirino.Lib.Threads
import Kirino.Utils.Base64Url
/-!
# Challenge — single-use challenges (`auth/passport/webauthn/challenge.rs`)

A challenge is issued with a purpose and a user, and a verification takes it out of the store before it checks anything.
Each use of the lock is a step, and each reading of the clock outside it, so that calls may overlap.  An eviction only
takes entries out, and leaves room for one (`len_evictOldest`).
-/
namespace Kirino
namespace Auth
namespace Webauthn

open Lib (HashMap Machine Pool PoolEvent PoolInv)
open Lib.Program (spawned)

inductive ChallengePurpose where
  | register | authenticate
deriving DecidableEq, Repr

inductive WebAuthnChallengeError where
  | notFound | expired | purposeMismatch | userMismatch
deriving DecidableEq, Repr

structure ChallengeEntry where
  issuedAt : Nat
  purpose : ChallengePurpose
  userId : Option String
deriving DecidableEq, Repr

/-- The limits of a store; the time to live is in nanoseconds. -/
structure ChallengeLimits where
  ttl : Nat
  cap : Nat

def ChallengeLimits.default : ChallengeLimits := ⟨180 * 10 ^ 9, 10000⟩

abbrev ChallengeEntries := HashMap String ChallengeEntry

/-- Entries past their time leave. -/
def prune (ttl now : Nat) (entries : ChallengeEntries) : ChallengeEntries :=
  entries.retain (fun _ e => decide (now - e.issuedAt ≤ ttl))

/-- The challenges with the times of their issue, the oldest first. -/
def byIssuance (entries : ChallengeEntries) : List (String × Nat) :=
  (entries.entries.map (fun e => (e.1, e.2.issuedAt))).insertionSort (fun a b => a.2 ≤ b.2)

/-- At the capacity the oldest entries leave, until there is room for one more. -/
def evictOldest (cap : Nat) (entries : ChallengeEntries) : ChallengeEntries :=
  if cap ≤ entries.len then
    let v := byIssuance entries
    let dropN := v.length - (cap - 1)
    ((v.take dropN).map Prod.fst).foldl HashMap.remove entries
  else entries

/-! ## The eviction -/

theorem keys_byIssuance (entries : ChallengeEntries) : ((byIssuance entries).map Prod.fst).Perm entries.keys := by
  unfold byIssuance
  have hperm := (List.perm_insertionSort (fun a b : String × Nat => a.2 ≤ b.2)
    (entries.entries.map (fun e => (e.1, e.2.issuedAt)))).map Prod.fst
  rw [List.map_map] at hperm
  exact hperm

theorem length_byIssuance (entries : ChallengeEntries) : (byIssuance entries).length = entries.len := by
  have h := (keys_byIssuance entries).length_eq
  rw [List.length_map, ← entries.len_eq_length_keys] at h
  exact h

theorem get?_evictOldest {cap : Nat} {entries : ChallengeEntries} {challenge : String} {entry : ChallengeEntry}
    (h : (evictOldest cap entries).get? challenge = some entry) : entries.get? challenge = some entry := by
  unfold evictOldest at h
  split at h
  · dsimp only at h
    rw [HashMap.get?_foldl_remove] at h
    split at h
    · cases h
    · exact h
  · exact h

/-- **There is room for one more** after an eviction. -/
theorem len_evictOldest (cap : Nat) (entries : ChallengeEntries) : (evictOldest cap entries).len ≤ cap - 1 := by
  unfold evictOldest
  split
  · dsimp only
    -- the challenges that leave are in the store, each once, so that as many entries leave
    have hnodup : ((byIssuance entries).map Prod.fst).Nodup := (keys_byIssuance entries).nodup_iff.2 entries.nodup
    have hsub := List.take_subset ((byIssuance entries).length - (cap - 1)) ((byIssuance entries).map Prod.fst)
    have hlen := HashMap.len_foldl_remove _ (hnodup.sublist (List.take_sublist _ _)) entries
      (fun k hk => (keys_byIssuance entries).mem_iff.1 (hsub hk))
    simp only [List.length_take, List.length_map, length_byIssuance] at hlen
    simp only [List.map_take, length_byIssuance]
    omega
  · omega

/-- The checks of an entry that has been taken out. -/
def checkEntry (ttl now : Nat) (entry : ChallengeEntry) (expectedPurpose : ChallengePurpose) (expectedUser : Option String) :
    Except WebAuthnChallengeError Unit :=
  if ttl < now - entry.issuedAt then .error .expired
  else if entry.purpose ≠ expectedPurpose then .error .purposeMismatch
  else
    match entry.userId, expectedUser with
    | some bound, some want => if bound ≠ want then .error .userMismatch else .ok ()
    | some _, none => .error .userMismatch
    | none, some _ => .error .userMismatch
    | none, none => .ok ()

theorem checkEntry_eq_ok {ttl now : Nat} {entry : ChallengeEntry} {expectedPurpose : ChallengePurpose}
    {expectedUser : Option String} (h : checkEntry ttl now entry expectedPurpose expectedUser = .ok ()) :
    now - entry.issuedAt ≤ ttl ∧ entry.purpose = expectedPurpose ∧ entry.userId = expectedUser := by
  unfold checkEntry at h
  split at h
  · cases h
  · rename_i htime
    split at h
    · cases h
    · rename_i hpurpose
      refine ⟨Nat.not_lt.1 htime, not_not.1 hpurpose, ?_⟩
      split at h
      · rename_i bound want hbound
        split at h
        · cases h
        · rename_i hsame
          rw [hbound, not_not.1 hsame]
      · cases h
      · cases h
      · rename_i hnone
        exact hnone

/-- The places of a call, each with what it has drawn or taken out. -/
inductive ChallengeCall where
  | issue (purpose : ChallengePurpose) (userId : Option String)
  | draw (purpose : ChallengePurpose) (userId : Option String)
  | insert (purpose : ChallengePurpose) (userId : Option String) (challenge : String)
  | verify (challenge : String) (expectedPurpose : ChallengePurpose) (expectedUser : Option String)
  | check (entry : ChallengeEntry) (expectedPurpose : ChallengePurpose) (expectedUser : Option String)
  | returned

inductive ChallengeAnswer where
  | issued (challenge : String)
  | verified (result : Except WebAuthnChallengeError Unit)
deriving DecidableEq

structure ChallengeStore where
  entries : ChallengeEntries
  now : Nat

/-- The clock goes forward. -/
inductive TimeOp where
  | elapse (nanos : Nat)

abbrev ChallengeEvent := PoolEvent ChallengeCall (List UInt8) TimeOp

section Steps
variable (sha256 : List UInt8 → List UInt8) (limits : ChallengeLimits)

/-- One step of a call; a draw takes the random bytes. -/
def ChallengeCall.next (raw : List UInt8) (w : ChallengeStore) :
    ChallengeCall → ChallengeStore × ChallengeCall × Option ChallengeAnswer
  | issue purpose userId => ({ w with entries := prune limits.ttl w.now w.entries }, draw purpose userId, none)
  | draw purpose userId => (w, insert purpose userId (Utils.base64UrlEncode (sha256 raw)), none)
  | insert purpose userId challenge =>
    ({ w with entries := (evictOldest limits.cap w.entries).insert challenge ⟨w.now, purpose, userId⟩ }, returned,
      some (.issued challenge))
  | verify challenge expectedPurpose expectedUser =>
    match w.entries.get? challenge with
    | some entry =>
      ({ w with entries := w.entries.remove challenge }, check entry expectedPurpose expectedUser, none)
    | none => (w, returned, some (.verified (.error .notFound)))
  | check entry expectedPurpose expectedUser =>
    (w, returned, some (.verified (checkEntry limits.ttl w.now entry expectedPurpose expectedUser)))
  | returned => (w, returned, none)

def TimeOp.perform (w : ChallengeStore) : TimeOp → ChallengeStore
  | elapse nanos => { w with now := w.now + nanos }

def challengeProgram : Lib.Program ChallengeStore ChallengeCall (List UInt8) TimeOp (Option ChallengeAnswer) where
  next _ raw w call := call.next sha256 limits raw w
  env op w := (op.perform w, none)
  idle := none

def challengeMachine : Machine (Pool ChallengeStore ChallengeCall) ChallengeEvent (Option ChallengeAnswer) :=
  (challengeProgram sha256 limits).machine

end Steps

end Webauthn
end Auth
end Kirino
