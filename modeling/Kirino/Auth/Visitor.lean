import Mathlib.Data.Finset.Insert
import Kirino.Auth.Credential
import Kirino.Lib.Instants
import Kirino.Lib.Text
import Kirino.Lib.Threads
import Kirino.Rbac.IdentitySubject
/-!
# Visitor — visitor tickets (`src/auth/visitor.rs`, `src/local.rs`)

A ticket is a temporary identity in the store, presented as a token signed for its id.  Issuing creates the identity and
mints a token; verifying and renewing decode a presented token, strictly and leniently, and pass the same gate; renewing
mints another token.  What a call does between two reads of the clock or accesses of the store is one step, so that calls
may overlap.  Instants are nanoseconds from the first date-time.
-/
namespace Kirino
namespace Auth

open Lib (HashMap Machine Pool PoolEvent debugText nanosPerSec)
open Rbac (Identity)

structure VisitorTicketClaims where
  sub : String
  typ : String
  tier : String
  iat : Int
  exp : Int
deriving DecidableEq, Repr

/-! ## What the libraries do -/

structure Validation where
  leeway : Nat
  validateExp : Bool

inductive JwtError where
  | expiredSignature
  | other (text : String)
deriving DecidableEq, Repr

/-- The functions used of the libraries for UUIDs and for tokens; `unprintable` is the table of the debug form. -/
structure TicketCrates (U : Type) where
  parseStr : String → Except String U
  display : U → String
  unprintable : Char → Bool
  debugIdentity : Identity U → String
  encode : VisitorTicketClaims → List UInt8 → Except String String
  decode : Validation → String → List UInt8 → Int → Except JwtError VisitorTicketClaims

/-- What the libraries document: a displayed UUID parses to itself; a decoded token's claims are its payload, whatever the
key, the validation and the instant; the payload of an encoded token is what was encoded. -/
structure TicketCrates.Lawful {U : Type} (C : TicketCrates U) : Prop where
  parseStr_display : ∀ id, C.parseStr (C.display id) = .ok id
  decode_unique : ∀ {token v v' k k' now now' c c'}, C.decode v token k now = .ok c → C.decode v' token k' now' = .ok c' →
    c = c'
  decode_encode : ∀ {c k token v k' now c'}, C.encode c k = .ok token → C.decode v token k' now = .ok c' → c' = c

/-! ## The clock -/

/-- The first second of a date-time. -/
def minTimestamp : Int := -8334601228800

/-- The last instant of a date-time. -/
def maxInstant : Nat := (maxTimestamp - minTimestamp + 1).toNat * nanosPerSec - 1

def timestamp (instant : Nat) : Int := minTimestamp + (instant / nanosPerSec : Nat)

/-- The sum of a date-time and a duration panics outside the date-times. -/
def addDuration (instant : Nat) (duration : Int) : Option Nat :=
  let sum := instant + duration
  if 0 ≤ sum ∧ sum ≤ maxInstant then some sum.toNat else none

theorem addDuration_eq_some {instant later : Nat} {duration : Int} (h : addDuration instant duration = some later) :
    (later : Int) = instant + duration := by
  unfold addDuration at h
  dsimp only at h
  split at h
  · obtain rfl := Option.some.inj h
    omega
  · cases h

/-! ## Tokens -/

structure LocalJwt where
  secret : List UInt8

inductive LocalJwtError where
  | sign (text : String)
  | verify (e : JwtError)
  | missingExp
deriving DecidableEq, Repr

inductive VisitorTicketError where
  | expired
  | principalExpired
  | revoked
  | unknownTicket
  | invalid (text : String)
  | mint (text : String)
  | store (text : String)
deriving DecidableEq, Repr

def visitorSubjectPrefix : String := "visitor:"

def ticketTokenType : String := "temporary"

def VisitorTicketError.from : LocalJwtError → VisitorTicketError
  | .missingExp => .invalid "claims without a positive exp"
  | .sign e => .mint ("sign failed: " ++ e)
  | .verify .expiredSignature => .expired
  | .verify (.other e) => .invalid ("signature verification failed: " ++ e)

/-- The text after the first part, when it begins with it. -/
def stripStart (first text : String) : Option String :=
  if first.toList.isPrefixOf text.toList then some (String.ofList (text.toList.drop first.toList.length)) else none

theorem stripStart_append (first rest : String) : stripStart first (first ++ rest) = some rest := by
  unfold stripStart
  have hstart : first.toList.isPrefixOf (first ++ rest).toList = true := by
    rw [String.toList_append, List.isPrefixOf_iff_prefix]
    exact List.prefix_append _ _
  rw [if_pos hstart, String.toList_append, List.drop_left, String.ofList_toList]

section Crates
variable {U : Type} (C : TicketCrates U)

namespace LocalJwt

def sign (jwt : LocalJwt) (claims : VisitorTicketClaims) : Except LocalJwtError String :=
  if claims.exp ≤ 0 then .error .missingExp else (C.encode claims jwt.secret).mapError .sign

/-- The signature and the expiry, with a leeway of a minute. -/
def verify (jwt : LocalJwt) (token : String) (now : Int) : Except LocalJwtError VisitorTicketClaims :=
  (C.decode ⟨60, true⟩ token jwt.secret now).mapError .verify

/-- The signature alone. -/
def verifyLenient (jwt : LocalJwt) (token : String) (now : Int) : Except LocalJwtError VisitorTicketClaims :=
  (C.decode ⟨60, false⟩ token jwt.secret now).mapError .verify

end LocalJwt

def VisitorTicketClaims.ticketId (claims : VisitorTicketClaims) : Except VisitorTicketError U :=
  match stripStart visitorSubjectPrefix claims.sub with
  | some raw =>
    (C.parseStr raw).mapError (fun e => .invalid ("subject " ++ debugText C.unprintable raw ++ " is not a UUID: " ++ e))
  | none =>
    .error (.invalid ("subject " ++ debugText C.unprintable claims.sub ++ " lacks the " ++
      debugText C.unprintable visitorSubjectPrefix ++ " prefix"))

end Crates

/-! ## The manager and its store -/

structure VisitorTicketConfig where
  secret : List UInt8
  accessTtl : Int
  inactivityWindow : Int
  tier : String

namespace VisitorTicketConfig

/-- A day for a token, ninety for a principal. -/
def new (secret : List UInt8) : VisitorTicketConfig :=
  ⟨secret, 24 * 3600 * nanosPerSec, 90 * 24 * 3600 * nanosPerSec, "anon"⟩

def jwt (config : VisitorTicketConfig) : LocalJwt := ⟨config.secret⟩

end VisitorTicketConfig

structure IssuedTicket (U : Type) where
  token : String
  ticketId : U
  identity : Identity U
  accessExpiresAt : Nat

structure VerifiedTicket (U : Type) where
  claims : VisitorTicketClaims
  ticketId : U
  identity : Identity U
  principalExpiresAt : Nat

structure InMemoryVisitorTicketStore (U : Type) where
  identities : HashMap U (Identity U)
  revoked : Finset U

def temporaryId {U : Type} : Identity U → Option U
  | .temporary id _ => some id
  | _ => none

/-- The two paths that consume a ticket. -/
inductive Presentation where
  | verify | renew
deriving DecidableEq, Repr

/-- The places of a call, each with what it has read. -/
inductive TicketCall (U : Type) where
  | issue
  | createTemporary (expiresAt : Nat)
  | present (way : Presentation) (token : String)
  | getTemporary (way : Presentation) (claims : VisitorTicketClaims) (ticketId : U)
  | isRevoked (way : Presentation) (claims : VisitorTicketClaims) (ticketId : U) (identity : Identity U)
  | checkExpiry (way : Presentation) (claims : VisitorTicketClaims) (ticketId : U) (identity : Identity U)
  | mint (ticketId : U) (identity : Identity U)
  | revoke (ticketId : U)
  | returned

inductive TicketAnswer (U : Type) where
  | issued (ticket : IssuedTicket U)
  | verified (ticket : VerifiedTicket U)
  | revoked
  | failed (e : VisitorTicketError)
  | panicked

/-- The clock goes forward. -/
inductive ClockOp where
  | elapse (nanos : Nat)

structure TicketWorld (U : Type) where
  store : InMemoryVisitorTicketStore U
  now : Nat

abbrev TicketEvent (U : Type) := PoolEvent (TicketCall U) U ClockOp

section Steps
variable {U : Type} [DecidableEq U] (C : TicketCrates U) (config : VisitorTicketConfig)

/-- What a presented token is decoded to. -/
def decodeToken (way : Presentation) (token : String) (now : Nat) : Except VisitorTicketError VisitorTicketClaims :=
  match way with
  | .verify => (config.jwt.verify C token (timestamp now)).mapError .from
  | .renew => (config.jwt.verifyLenient C token (timestamp now)).mapError .from

/-- The checks of the gate that are made of the claims alone. -/
def admitClaims (claims : VisitorTicketClaims) : Except VisitorTicketError U :=
  if claims.typ ≠ ticketTokenType then
    .error (.invalid ("unexpected token type " ++ debugText C.unprintable claims.typ ++ "; tickets carry " ++
      debugText C.unprintable ticketTokenType))
  else claims.ticketId C

def mintClaims (now accessExpiresAt : Nat) (ticketId : U) : VisitorTicketClaims :=
  ⟨visitorSubjectPrefix ++ C.display ticketId, ticketTokenType, config.tier, timestamp now, timestamp accessExpiresAt⟩

def mintTicket (now : Nat) (ticketId : U) (identity : Identity U) : TicketAnswer U :=
  match addDuration now config.accessTtl with
  | none => .panicked
  | some accessExpiresAt =>
    match config.jwt.sign C (mintClaims C config now accessExpiresAt ticketId) with
    | .ok token => .issued ⟨token, ticketId, identity, accessExpiresAt⟩
    | .error e => .failed (.from e)

namespace TicketCall

/-- One step of a call; a created identity takes the id that is drawn. -/
def next (drawn : U) (w : TicketWorld U) : TicketCall U → TicketWorld U × TicketCall U × Option (TicketAnswer U)
  | issue =>
    match addDuration w.now config.inactivityWindow with
    | some expiresAt => (w, createTemporary expiresAt, none)
    | none => (w, returned, some .panicked)
  | createTemporary expiresAt =>
    let identity := .temporary drawn expiresAt
    let w' := { w with store := { w.store with identities := w.store.identities.insert drawn identity } }
    match temporaryId identity with
    | some ticketId => (w', mint ticketId identity, none)
    | none => (w', returned, some (.failed (.store
        ("store returned a non-temporary identity from create_temporary: " ++ C.debugIdentity identity))))
  | present way token =>
    match (decodeToken C config way token w.now).bind (fun claims => (admitClaims C claims).map (claims, ·)) with
    | .ok (claims, ticketId) => (w, getTemporary way claims ticketId, none)
    | .error e => (w, returned, some (.failed e))
  | getTemporary way claims ticketId =>
    match w.store.identities.get? ticketId with
    | some identity => (w, isRevoked way claims ticketId identity, none)
    | none => (w, returned, some (.failed .unknownTicket))
  | isRevoked way claims ticketId identity =>
    if ticketId ∈ w.store.revoked then (w, returned, some (.failed .revoked))
    else (w, checkExpiry way claims ticketId identity, none)
  | checkExpiry way claims ticketId identity =>
    match identity with
    | .temporary _ principalExpiresAt =>
      if principalExpiresAt < w.now then (w, returned, some (.failed .principalExpired))
      else
        match way with
        | .verify => (w, returned, some (.verified ⟨claims, ticketId, identity, principalExpiresAt⟩))
        | .renew => (w, mint ticketId identity, none)
    | _ => (w, returned, some (.failed (.store
        ("store returned a non-temporary identity for ticket " ++ C.display ticketId))))
  | mint ticketId identity => (w, returned, some (mintTicket C config w.now ticketId identity))
  | revoke ticketId =>
    ({ w with store := { w.store with revoked := insert ticketId w.store.revoked } }, returned, some .revoked)
  | returned => (w, returned, none)

end TicketCall

def ClockOp.perform (w : TicketWorld U) : ClockOp → TicketWorld U
  | elapse nanos => { w with now := w.now + nanos }

def ticketProgram : Lib.Program (TicketWorld U) (TicketCall U) U ClockOp (Option (TicketAnswer U)) where
  next _ drawn w call := call.next C config drawn w
  env op w := (op.perform w, none)
  idle := none

def ticketMachine : Machine (Pool (TicketWorld U) (TicketCall U)) (TicketEvent U) (Option (TicketAnswer U)) :=
  (ticketProgram C config).machine

end Steps

/-- No ticket yet. -/
def TicketWorld.new (U : Type) (now : Nat) : TicketWorld U := ⟨⟨HashMap.empty, ∅⟩, now⟩

end Auth
end Kirino
