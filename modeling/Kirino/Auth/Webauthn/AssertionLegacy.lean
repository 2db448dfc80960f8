import Kirino.Auth.Webauthn.AuthData
import Kirino.Utils.ConstantTime
/-!
# AssertionLegacy — the key of a credential, and its legacy verifier (`auth/passport/webauthn/assertion_legacy.rs`)

A stored key is decoded and checked before an assertion is verified with it: an EC2 key for ES256 whose coordinates are a
point on P-256.  What registration checks of a key is its algorithm.  The legacy verifier compares the credential ids,
checks the counter that it is given, and verifies the signature.  The decoders, the curve and the signatures are those of
the libraries.
-/
namespace Kirino
namespace Auth
namespace Webauthn

open Lib (ok_of_bind)
open Lib.Cbor (beNat)
open Utils (constantTimeEq constantTimeEq_iff)

/-! ## What the libraries decode -/

inductive CborValue where
  | integer (i : Int)
  | bytes (b : ByteSlice)
  | float (bits : UInt64)
  | text (t : String)
  | bool (b : Bool)
  | null
  | tag (n : Nat) (v : CborValue)
  | array (vs : List CborValue)
  | map (m : List (CborValue × CborValue))

namespace CborValue

def asText : CborValue → Option String
  | text t => some t
  | _ => none

def asInteger : CborValue → Option Int
  | integer i => some i
  | _ => none

def asBytes : CborValue → Option (List UInt8)
  | bytes b => some b.bytes
  | _ => none

end CborValue

/-- A registered key type, by its number. -/
inductive KeyType where
  | assigned (code : Int)
  | text (t : String)
deriving DecidableEq, Repr

inductive Algorithm where
  | privateUse (code : Int)
  | assigned (code : Int)
  | text (t : String)
deriving DecidableEq, Repr

inductive Label where
  | int (i : Int)
  | text (t : String)
deriving DecidableEq, Repr

structure CoseKey where
  kty : KeyType
  alg : Option Algorithm
  params : List (Label × CborValue)

def keyTypeEc2 : Int := 2

def algorithmEs256 : Int := -7

def labelCrv : Int := -1

def labelX : Int := -2

def labelY : Int := -3

def curveP256 : Int := 1

/-! ## The curve -/

def p256Prime : Nat := 2 ^ 256 - 2 ^ 224 + 2 ^ 192 + 2 ^ 96 - 1

def p256B : Nat := 0x5ac635d8aa3a93e7b3ebbd55769886bc651d06b0cc53b0f63bce3c3e27d2604b

/-- The coordinates satisfy `y² = x³ - 3x + b` over the prime field. -/
def onP256 (x y : Nat) : Prop :=
  x < p256Prime ∧ y < p256Prime ∧ y ^ 2 % p256Prime = (x ^ 3 + (p256Prime - 3) * x + p256B) % p256Prime

instance (x y : Nat) : Decidable (onP256 x y) := by
  unfold onP256
  infer_instance

/-- The bytes are two coordinates of 32 bytes, of a point on the curve. -/
def IsP256Point (bytes : List UInt8) : Prop :=
  bytes.length = 64 ∧ onP256 (beNat (bytes.take 32)) (beNat (bytes.drop 32))

instance (bytes : List UInt8) : Decidable (IsP256Point bytes) := by
  unfold IsP256Point
  infer_instance

/-- The functions used of the libraries for CBOR, COSE, hashes and curves, and the table of the debug form. -/
structure WebauthnCrates (K : Type) where
  fromReader : List UInt8 → Except String CborValue
  coseKeyFromSlice : List UInt8 → Except String CoseKey
  debugKeyType : KeyType → String
  unprintable : Char → Bool
  sha256 : List UInt8 → List UInt8
  fromSec1Bytes : List UInt8 → Except String K

/-- An uncompressed point is accepted exactly when it is one of the curve. -/
structure WebauthnCrates.Lawful {K : Type} (C : WebauthnCrates K) : Prop where
  fromSec1Bytes_iff : ∀ bytes, (∃ key, C.fromSec1Bytes (0x04 :: bytes) = .ok key) ↔ IsP256Point bytes

/-! ## The checks of a key -/

/-- The algorithm, when it is a registered one. -/
def CoseKey.assignedAlg (key : CoseKey) : Option Int :=
  match key.alg with
  | some (.assigned a) => some a
  | _ => none

def checkAlg (key : CoseKey) : Except Fault Unit :=
  match key.assignedAlg with
  | none => .error (.error "missing or unassigned algorithm")
  | some alg =>
    if alg ≠ algorithmEs256 then .error (.error ("unsupported algorithm: expected ES256, got " ++ toString alg)) else .ok ()

/-- What registration checks of a key. -/
def validateSupportedKey (key : CoseKey) : Except Fault Unit := checkAlg key

/-- The first parameter with the label. -/
def CoseKey.param (key : CoseKey) (label : Int) : Option CborValue :=
  (key.params.find? (fun p => decide (p.1 = .int label))).map Prod.snd

/-- A parameter that is an integer and fits an `i64`. -/
def CoseKey.paramInt (key : CoseKey) (label : Int) : Option Int :=
  match (key.param label).bind CborValue.asInteger with
  | some i => if Lib.inI64 i then some i else none
  | none => none

def CoseKey.paramBytes (key : CoseKey) (label : Int) : Option (List UInt8) := (key.param label).bind CborValue.asBytes

section Crates
variable {K : Type} (C : WebauthnCrates K)

/-- The checks of a decoded key, and the verifying key that it is. -/
def verifyingKeyOf (key : CoseKey) : Except Fault K :=
  if key.kty ≠ .assigned keyTypeEc2 then
    .error (.error ("unsupported key type: expected EC2, got " ++ C.debugKeyType key.kty))
  else do
    checkAlg key
    let crv ← orError "missing curve parameter" (key.paramInt labelCrv)
    if crv ≠ curveP256 then
      .error (.error ("unsupported curve: expected P-256 (" ++ toString curveP256 ++ "), got " ++ toString crv))
    else do
      let x ← orError "missing EC x-coordinate" (key.paramBytes labelX)
      let y ← orError "missing EC y-coordinate" (key.paramBytes labelY)
      (C.fromSec1Bytes (0x04 :: (x ++ y))).mapError (fun e => .error ("invalid EC public key: " ++ e))

def keyFromCose (coseKeyBytes : List UInt8) : Except Fault K := do
  let key ← (C.coseKeyFromSlice coseKeyBytes).mapError (fun e => .error ("invalid COSE key: " ++ e))
  verifyingKeyOf C key

/-! ## Which keys are accepted -/

/-- The key is a point on P-256, by its type, its curve and its coordinates. -/
structure IsP256Key (key : CoseKey) : Prop where
  kty : key.kty = .assigned keyTypeEc2
  crv : key.paramInt labelCrv = some curveP256
  point : ∃ x y, key.paramBytes labelX = some x ∧ key.paramBytes labelY = some y ∧ IsP256Point (x ++ y)

variable {C}

/-- **A key for ES256 is accepted exactly when it is a point on P-256.** -/
theorem verifyingKeyOf_iff (hC : C.Lawful) {key : CoseKey} (halg : checkAlg key = .ok ()) :
    (∃ k, verifyingKeyOf C key = .ok k) ↔ IsP256Key key := by
  unfold verifyingKeyOf
  by_cases hkty : key.kty = .assigned keyTypeEc2
  · rw [if_neg (not_not_intro hkty), halg]
    dsimp only [bind, Except.bind]
    cases hcrv : key.paramInt labelCrv with
    | none => exact ⟨fun ⟨_, hk⟩ => (nomatch hk), fun h => (nomatch hcrv.symm.trans h.crv)⟩
    | some crv =>
      dsimp only [orError]
      by_cases hcurve : crv = curveP256
      · rw [if_neg (not_not_intro hcurve)]
        cases hx : key.paramBytes labelX with
        | none => exact ⟨fun ⟨_, hk⟩ => (nomatch hk), fun ⟨_, _, _, _, hpx, _⟩ => (nomatch hx.symm.trans hpx)⟩
        | some x =>
          cases hy : key.paramBytes labelY with
          | none => exact ⟨fun ⟨_, hk⟩ => (nomatch hk), fun ⟨_, _, _, _, _, hpy, _⟩ => (nomatch hy.symm.trans hpy)⟩
          | some y =>
            dsimp only
            constructor
            · rintro ⟨k, hk⟩
              have hpoint := (hC.fromSec1Bytes_iff (x ++ y)).1 ⟨k, Lib.ok_of_mapError hk⟩
              exact ⟨hkty, hcurve ▸ hcrv, x, y, hx, hy, hpoint⟩
            · rintro ⟨-, -, x', y', hx', hy', hpoint⟩
              obtain rfl := Option.some.inj (hx.symm.trans hx')
              obtain rfl := Option.some.inj (hy.symm.trans hy')
              obtain ⟨k, hk⟩ := (hC.fromSec1Bytes_iff _).2 hpoint
              exact ⟨k, by rw [hk]; rfl⟩
      · rw [if_pos hcurve]
        exact ⟨fun ⟨_, hk⟩ => (nomatch hk), fun h => absurd (Option.some.inj (hcrv.symm.trans h.crv)) hcurve⟩
  · rw [if_pos hkty]
    exact ⟨fun ⟨_, hk⟩ => (nomatch hk), fun h => absurd h.kty hkty⟩

end Crates

/-! ## The legacy verifier -/

/-- What is used of the libraries for signatures as well. -/
structure SignatureCrates (K S : Type) extends WebauthnCrates K where
  signatureFromDer : List UInt8 → Except String S
  verify : K → List UInt8 → S → Except String Unit

structure WebAuthnVerifier where
  credentialId : List UInt8
  publicKeyCose : List UInt8
  signCount : Nat
deriving DecidableEq, Repr

/-- The largest step of a counter that is accepted. -/
def maxSignCountGap : Nat := 1024

/-- A counter moves forward, by no more than the gap; without a counter both are zero. -/
def Advances (stored auth : Nat) : Prop := (auth = 0 ∧ stored = 0) ∨ (stored < auth ∧ auth ≤ stored + maxSignCountGap)

section Signatures
variable {K S : Type} (C : SignatureCrates K S)

/-- The signature of the data and the digest of `clientDataJSON`, by the stored key. -/
def checkSignature (publicKeyCose data clientDataJson signature : List UInt8) : Except Fault Unit := do
  let verifyingKey ← keyFromCose C.toWebauthnCrates publicKeyCose
  let sig ← (C.signatureFromDer signature).mapError (fun e => .error ("invalid DER signature: " ++ e))
  (C.verify verifyingKey (data ++ C.sha256 clientDataJson) sig).mapError
    (fun e => .error ("signature verification failed: " ++ e))

namespace WebAuthnVerifier

def checkSignCount (verifier : WebAuthnVerifier) (authSignCount : Nat) : Except Fault Unit :=
  if authSignCount ≠ 0 ∨ verifier.signCount ≠ 0 then
    if authSignCount ≤ verifier.signCount then
      .error (.error ("sign_count not incremented: stored=" ++ toString verifier.signCount ++ ", auth=" ++
        toString authSignCount))
    else if maxSignCountGap < authSignCount - verifier.signCount then
      .error (.error ("sign_count gap too large: stored=" ++ toString verifier.signCount ++ ", auth=" ++
        toString authSignCount))
    else .ok ()
  else .ok ()

def verify (verifier : WebAuthnVerifier) (credentialId authenticatorData clientDataJson signature : List UInt8)
    (authSignCount : Nat) : Except Fault Nat :=
  if !constantTimeEq credentialId verifier.credentialId then .error (.error "credential_id mismatch")
  else do
    verifier.checkSignCount authSignCount
    checkSignature C verifier.publicKeyCose authenticatorData clientDataJson signature
    .ok authSignCount

theorem checkSignCount_iff {verifier : WebAuthnVerifier} {auth : Nat} :
    verifier.checkSignCount auth = .ok () ↔ Advances verifier.signCount auth := by
  unfold checkSignCount Advances
  by_cases hcounts : auth ≠ 0 ∨ verifier.signCount ≠ 0
  · rw [if_pos hcounts]
    by_cases hstill : auth ≤ verifier.signCount
    · rw [if_pos hstill]
      exact ⟨nofun, fun h => by omega⟩
    · rw [if_neg hstill]
      by_cases hgap : maxSignCountGap < auth - verifier.signCount
      · rw [if_pos hgap]
        exact ⟨nofun, fun h => by omega⟩
      · rw [if_neg hgap]
        exact ⟨fun _ => Or.inr (by omega), fun _ => rfl⟩
  · rw [if_neg hcounts]
    exact ⟨fun _ => Or.inl (by omega), fun _ => rfl⟩

variable {C}

/-- **What the legacy verifier accepts**: the stored credential, a counter that advances, and a signature by its key. -/
theorem verify_iff {verifier : WebAuthnVerifier} {credentialId authenticatorData clientDataJson signature : List UInt8}
    {auth count : Nat} :
    verifier.verify C credentialId authenticatorData clientDataJson signature auth = .ok count ↔
      credentialId = verifier.credentialId ∧ Advances verifier.signCount auth ∧
        checkSignature C verifier.publicKeyCose authenticatorData clientDataJson signature = .ok () ∧ count = auth := by
  unfold verify
  by_cases hid : constantTimeEq credentialId verifier.credentialId = true
  · rw [hid, ← constantTimeEq_iff, ← checkSignCount_iff, hid]
    constructor
    · intro h
      obtain ⟨⟨⟩, hcount, h⟩ := ok_of_bind h
      obtain ⟨⟨⟩, hsig, h⟩ := ok_of_bind h
      exact ⟨rfl, hcount, hsig, (Except.ok.inj h).symm⟩
    · rintro ⟨-, hcount, hsig, rfl⟩
      rw [hcount, hsig]
      rfl
  · rw [Bool.not_eq_true] at hid
    rw [hid, ← constantTimeEq_iff, hid]
    exact ⟨nofun, fun h => nomatch h.1⟩

end WebAuthnVerifier
end Signatures
end Webauthn
end Auth
end Kirino
