import Kirino.Lib.MachineInt
/-!
# Token — the claims of a session token (`packages/session/src/token.rs`)

Instants are natural numbers of seconds; the random identifiers a constructor draws are its arguments, and so is whether
the build checks sums for overflow.
-/
namespace Kirino
namespace Session

open Lib (sumU64)

inductive TokenType where
  | access
  | refresh
deriving DecidableEq, Repr

structure TokenClaims where
  sub : String
  username : String
  tokenType : TokenType
  iat : Nat
  exp : Nat
  iss : String
  jti : String
  sid : Option String
  roles : List String
  userId : Option String
  tenantId : Option String
  relayId : Option String
  workspaceId : Option String
  permissions : List String
  aud : Option String
deriving DecidableEq, Repr

namespace TokenClaims

/-- `none` when the sum of the expiry panics. -/
def new (overflowChecks : Bool) (now : Nat) (jti userId username : String) (tokenType : TokenType) (ttlSecs : Nat)
    (issuer : String) : Option TokenClaims :=
  (sumU64 overflowChecks now ttlSecs).map (fun exp =>
    { sub := userId, username, tokenType, iat := now, exp, iss := issuer, jti, sid := none, roles := [],
      userId := none, tenantId := none, relayId := none, workspaceId := none, permissions := [], aud := none })

def withSession (c : TokenClaims) (sid : String) : TokenClaims := { c with sid := some sid }

def withRoles (c : TokenClaims) (roles : List String) : TokenClaims := { c with roles }

def withAudience (c : TokenClaims) (aud : String) : TokenClaims := { c with aud := some aud }

end TokenClaims

structure TokenPair where
  accessToken : String
  refreshToken : String
  tokenType : String
  expiresIn : Nat
deriving DecidableEq, Repr

end Session
end Kirino
