import Kirino.Auth.Webauthn.Attestation
import Kirino.Utils.Base64Url
import Kirino.Utils.ConstantTime
/-!
# ClientData — what the browser says of a ceremony (`auth/passport/webauthn/client_data.rs`)

The type, the challenge and the origin of `clientDataJSON`, and what a ceremony expects of them.  The JSON reader is the
library's.
-/
namespace Kirino
namespace Auth
namespace Webauthn

open Utils (base64UrlDecode constantTimeEq constantTimeEq_iff)
open Lib (asciiLowercase debugText ok_of_bind)

def typeGet : String := "webauthn.get"

structure ClientData where
  typ : String
  challenge : String
  origin : String
  crossOrigin : Bool
deriving DecidableEq, Repr

/-- The bytes of a challenge, or the error that stands for any that the decoder reports. -/
def decodeOr (text s : String) : Except Fault (List UInt8) := (base64UrlDecode s).mapError (fun _ => .error text)

/-- The origin is in the allowlist, in any case. -/
def originAllowed (origin : String) (allowedOrigins : List String) : Bool :=
  allowedOrigins.any (fun o => asciiLowercase o = asciiLowercase origin)

namespace ClientData

def parse (fromSlice : List UInt8 → Except String ClientData) (bytes : List UInt8) : Except Fault ClientData :=
  (fromSlice bytes).mapError (fun e => .error ("invalid clientDataJSON: " ++ e))

def verifyExpectations (unprintable : Char → Bool) (data : ClientData) (expectedType expectedChallengeB64 : String)
    (allowedOrigins : List String) : Except Fault Unit :=
  if data.typ ≠ expectedType then
    .error (.error ("clientData type mismatch: expected " ++ expectedType ++ ", got " ++ data.typ))
  else do
    let issued ← decodeOr "issued challenge is not valid base64url" expectedChallengeB64
    let presented ← decodeOr "presented challenge is not valid base64url" data.challenge
    if !constantTimeEq issued presented then .error (.error "clientData challenge mismatch")
    else if data.crossOrigin then .error (.error "cross_origin ceremonies are not accepted")
    else if !originAllowed data.origin allowedOrigins then
      .error (.error ("origin " ++ debugText unprintable data.origin ++ " not in allowlist"))
    else .ok ()

/-- The ceremony is the expected one: its type, the bytes of its challenge, and its origin, which is the page's own. -/
structure Expected (data : ClientData) (expectedType expectedChallengeB64 : String) (allowedOrigins : List String) :
    Prop where
  typ : data.typ = expectedType
  challenge : ∃ bytes, base64UrlDecode expectedChallengeB64 = .ok bytes ∧ base64UrlDecode data.challenge = .ok bytes
  sameOrigin : data.crossOrigin = false
  origin : originAllowed data.origin allowedOrigins = true

theorem decodeOr_eq_ok_iff {text s : String} {bytes : List UInt8} :
    decodeOr text s = .ok bytes ↔ base64UrlDecode s = .ok bytes := by
  unfold decodeOr
  cases base64UrlDecode s with
  | error e => exact ⟨nofun, nofun⟩
  | ok b => exact ⟨fun h => congrArg _ (Except.ok.inj h), fun h => congrArg _ (Except.ok.inj h)⟩

/-- **The check passes exactly for the expected ceremony.** -/
theorem verifyExpectations_iff {unprintable : Char → Bool} {data : ClientData} {expectedType challenge : String}
    {origins : List String} :
    data.verifyExpectations unprintable expectedType challenge origins = .ok () ↔ data.Expected expectedType challenge origins := by
  unfold verifyExpectations
  by_cases htyp : data.typ = expectedType
  · rw [if_neg (not_not_intro htyp)]
    constructor
    · intro h
      obtain ⟨issued, hissued, h⟩ := ok_of_bind h
      obtain ⟨presented, hpresented, h⟩ := ok_of_bind h
      by_cases hsame : constantTimeEq issued presented = true
      · rw [hsame] at h
        obtain rfl := constantTimeEq_iff.1 hsame
        by_cases hcross : data.crossOrigin = true
        · rw [hcross] at h
          cases h
        · rw [Bool.not_eq_true] at hcross
          rw [hcross] at h
          by_cases horigin : originAllowed data.origin origins = true
          · exact ⟨htyp, ⟨issued, decodeOr_eq_ok_iff.1 hissued, decodeOr_eq_ok_iff.1 hpresented⟩, hcross, horigin⟩
          · rw [Bool.not_eq_true] at horigin
            rw [horigin] at h
            cases h
      · rw [Bool.not_eq_true] at hsame
        rw [hsame] at h
        cases h
    · rintro ⟨-, ⟨bytes, hissued, hpresented⟩, hcross, horigin⟩
      rw [decodeOr_eq_ok_iff.2 hissued, decodeOr_eq_ok_iff.2 hpresented]
      dsimp only [bind, Except.bind]
      rw [constantTimeEq_iff.2 rfl, hcross, horigin]
      rfl
  · rw [if_pos htyp]
    exact ⟨nofun, fun h => absurd h.typ htyp⟩

end ClientData
end Webauthn
end Auth
end Kirino
