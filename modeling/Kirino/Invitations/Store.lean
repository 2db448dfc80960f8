import Kirino.Lib.HashMap
import Kirino.Lib.Instants
import Kirino.Lib.Machine
import Kirino.Lib.MachineInt
/-!
# Store — invitations in memory (`invitation/types.rs`, `invitation/store.rs`)

An invitation is created with a number of uses and an expiry, opened (a direct one), accepted, revoked, and swept when it is
stale.  A call finds its invitation through the index of tokens, and what it does to it is a function of the invitation
alone; the clock's reading and the ids drawn are inputs.
-/
namespace Kirino
namespace Invitations

open Lib (HashMap Machine asI64 earliestInstant latestInstant maxDurationSecs nanosPerSec numSeconds)

inductive InvitationMode where
  | approval | direct
deriving DecidableEq, Repr

inductive InvitationStatus where
  | pending | opened | accepted | expired | revoked | exhausted
deriving DecidableEq, Repr

/-- Instants are nanoseconds from the epoch, and `U` are the UUIDs. -/
structure Invitation (U : Type) where
  id : U
  token : String
  groupId : U
  invitedBy : U
  mode : InvitationMode
  inviteeEmail : Option String
  role : String
  maxUses : UInt16
  useCount : UInt16
  allowMultiIp : Bool
  status : InvitationStatus
  openedAt : Option Int
  openedIp : Option String
  openedUa : Option String
  expiresAt : Int
  acceptedAt : Option Int
  acceptedBy : Option U
  createdAt : Int
deriving DecidableEq, Repr

structure CreateInvitationParams (U : Type) where
  groupId : U
  mode : InvitationMode
  inviteeEmail : Option String
  role : Option String
  maxUses : Option UInt16
  allowMultiIp : Option Bool
  ttlSecs : Option UInt64
  -- no call reads it: the window is `windowSecs` for every invitation
  openWindowSecs : Option UInt64
deriving DecidableEq, Repr

structure OpenInvitationResult (U : Type) where
  token : String
  groupId : U
  groupName : Option String
  invitedByName : Option String
  windowRemainingSecs : Int
deriving DecidableEq, Repr

inductive InvitationError where
  | notFound
  | alreadyUsed
  | expired
  | openWindowExpired (remaining : Int)
  | ipMismatch
  | multiIpDenied
  | invalidStatus (status : InvitationStatus)
  | other (text : String)
deriving DecidableEq, Repr

/-- How a call fails: with an error of its own, or by a panic. -/
inductive Failure where
  | error (e : InvitationError)
  | panicked
deriving DecidableEq, Repr

/-! ## The clock -/

/-- The expiry, none where the duration or the sum panics. -/
def expiryOf (now : Int) (ttlSecs : UInt64) : Option Int :=
  let secs := asI64 ttlSecs.toNat
  let sum := now + secs * nanosPerSec
  if -maxDurationSecs ≤ secs ∧ secs ≤ maxDurationSecs ∧ earliestInstant ≤ sum ∧ sum ≤ latestInstant then some sum else none

def defaultTtlSecs : UInt64 := 604800

def windowSecs : Int := 300

/-! ## What a call does to its invitation -/

section Ids
variable {U : Type}

def newInvitation (id : U) (token : String) (invitedBy : U) (params : CreateInvitationParams U) (now expiresAt : Int) :
    Invitation U where
  id := id
  token := token
  groupId := params.groupId
  invitedBy := invitedBy
  mode := params.mode
  inviteeEmail := params.inviteeEmail
  role := params.role.getD "member"
  maxUses := params.maxUses.getD 1
  useCount := 0
  allowMultiIp := params.allowMultiIp.getD true
  status := .pending
  openedAt := none
  openedIp := none
  openedUa := none
  expiresAt := expiresAt
  acceptedAt := none
  acceptedBy := none
  createdAt := now

namespace Invitation

/-- Neither accepted, expired, revoked nor exhausted. -/
def isLive (inv : Invitation U) : Bool := inv.status = .pending || inv.status = .opened

/-- The first opening is recorded. -/
def markOpened (inv : Invitation U) (clientIp clientUa : Option String) (now : Int) : Invitation U :=
  match inv.openedAt with
  | some _ => inv
  | none => { inv with openedAt := some now, openedIp := clientIp, openedUa := clientUa, status := .opened }

/-- The opening of an invitation that may be opened, and the time left of its window. -/
def openWindow (inv : Invitation U) (clientIp clientUa : Option String) (token : String) (now : Int) :
    Invitation U × Except Failure (OpenInvitationResult U) :=
  let openedAt := inv.openedAt.getD now
  let inv := inv.markOpened clientIp clientUa now
  let remaining := windowSecs - numSeconds (now - openedAt)
  if remaining ≤ 0 then ({ inv with status := .expired }, .error (.error (.openWindowExpired remaining)))
  else
    (inv, .ok { token, groupId := inv.groupId, groupName := none, invitedByName := none, windowRemainingSecs := remaining })

def «open» (inv : Invitation U) (clientIp clientUa : Option String) (token : String) (now : Int) :
    Invitation U × Except Failure (OpenInvitationResult U) :=
  if inv.mode ≠ .direct then (inv, .error (.error (.other "open is only valid for Direct-mode invitations")))
  else if now > inv.expiresAt then ({ inv with status := .expired }, .error (.error .expired))
  else if inv.status ≠ .pending ∧ inv.status ≠ .opened then (inv, .error (.error (.invalidStatus inv.status)))
  else inv.openWindow clientIp clientUa token now

/-- The window of a direct invitation has passed. -/
def windowPassed (inv : Invitation U) (now : Int) : Bool :=
  match inv.openedAt with
  | some openedAt => windowSecs < numSeconds (now - openedAt)
  | none => false

/-- The address is not the one that opened the invitation. -/
def ipDiffers (inv : Invitation U) (clientIp : Option String) : Bool :=
  match inv.openedIp, clientIp with
  | some storedIp, some reqIp => storedIp ≠ reqIp
  | _, _ => false

/-- One use more. -/
def redeem (inv : Invitation U) (acceptedBy : U) (now : Int) : Invitation U × Except Failure (U × String) :=
  if inv.useCount.toNat + 1 < 2 ^ 16 then
    let useCount := inv.useCount + 1
    let status := if useCount ≥ inv.maxUses then .accepted else inv.status
    ({ inv with useCount, status, acceptedAt := some now, acceptedBy := some acceptedBy }, .ok (inv.groupId, inv.role))
  else (inv, .error .panicked)

def accept (inv : Invitation U) (clientIp : Option String) (acceptedBy : U) (now : Int) :
    Invitation U × Except Failure (U × String) :=
  match inv.status with
  | .accepted => (inv, .error (.error .alreadyUsed))
  | .expired => (inv, .error (.error .expired))
  | .revoked => (inv, .error (.error .alreadyUsed))
  | .exhausted => (inv, .error (.error .alreadyUsed))
  | .pending | .opened =>
    if now > inv.expiresAt then ({ inv with status := .expired }, .error (.error .expired))
    else if inv.mode = .direct ∧ inv.windowPassed now then
      ({ inv with status := .expired }, .error (.error (.openWindowExpired 0)))
    else if inv.mode = .direct ∧ inv.ipDiffers clientIp then (inv, .error (.error .ipMismatch))
    else inv.redeem acceptedBy now

def revoke (inv : Invitation U) : Invitation U := if inv.status ≠ .revoked then { inv with status := .revoked } else inv

/-- Live, and past its expiry. -/
def isStale (inv : Invitation U) (now : Int) : Bool := inv.isLive && decide (now > inv.expiresAt)

def expireStale (inv : Invitation U) (now : Int) : Invitation U :=
  if inv.isStale now then { inv with status := .expired } else inv

end Invitation

/-! ## The store -/

structure InMemoryInvitationStore (U : Type) where
  inner : HashMap U (Invitation U)
  tokenIndex : HashMap String U

namespace InMemoryInvitationStore

def new : InMemoryInvitationStore U := ⟨HashMap.empty, HashMap.empty⟩

section Calls
variable [DecidableEq U]

/-- A new invitation, unless the expiry panics. -/
def create (store : InMemoryInvitationStore U) (id : U) (token : String) (invitedBy : U) (params : CreateInvitationParams U)
    (now : Int) : InMemoryInvitationStore U × Except Failure (Invitation U) :=
  match expiryOf now (params.ttlSecs.getD defaultTtlSecs) with
  | none => (store, .error .panicked)
  | some expiresAt =>
    let invitation := newInvitation id token invitedBy params now expiresAt
    (⟨store.inner.insert id invitation, store.tokenIndex.insert token id⟩, .ok invitation)

/-- The invitation that the token leads to. -/
def findByToken (store : InMemoryInvitationStore U) (token : String) : Option (Invitation U) :=
  (store.tokenIndex.get? token).bind store.inner.get?

/-- A call on the invitation that the token leads to. -/
def withToken {α : Type} (store : InMemoryInvitationStore U) (token : String)
    (call : Invitation U → Invitation U × Except Failure α) : InMemoryInvitationStore U × Except Failure α :=
  match store.tokenIndex.get? token with
  | none => (store, .error (.error .notFound))
  | some id =>
    match store.inner.get? id with
    | none => (store, .error (.error .notFound))
    | some inv => ({ store with inner := store.inner.insert id (call inv).1 }, (call inv).2)

def «open» (store : InMemoryInvitationStore U) (token : String) (clientIp clientUa : Option String) (now : Int) :
    InMemoryInvitationStore U × Except Failure (OpenInvitationResult U) :=
  store.withToken token (fun inv => inv.open clientIp clientUa token now)

def accept (store : InMemoryInvitationStore U) (token : String) (clientIp : Option String) (acceptedBy : U) (now : Int) :
    InMemoryInvitationStore U × Except Failure (U × String) :=
  store.withToken token (fun inv => inv.accept clientIp acceptedBy now)

def revoke (store : InMemoryInvitationStore U) (token : String) : InMemoryInvitationStore U × Except Failure Unit :=
  store.withToken token (fun inv => (inv.revoke, .ok ()))

/-- The stale invitations expire; the answer is their number. -/
def expireStale (store : InMemoryInvitationStore U) (now : Int) : InMemoryInvitationStore U × Except Failure Nat :=
  ({ store with inner := store.inner.mapValues (fun inv => inv.expireStale now) },
    .ok (store.inner.entries.countP (fun e => e.2.isStale now)))

end Calls
end InMemoryInvitationStore
end Ids
end Invitations
end Kirino
