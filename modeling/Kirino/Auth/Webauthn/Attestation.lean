import Kirino.Auth.Webauthn.AssertionLegacy
import Kirino.Lib.Text
/-!
# Attestation — registration of a credential (`auth/passport/webauthn/attestation.rs`)

An attestation object is accepted under the policy of no attestation: its authenticator data names the relying party, and
carries a credential whose key decodes and is for ES256.  An accepted key verifies later assertions exactly when it is a
point on P-256 (`usable_iff`): registration does not check its type, its curve and its coordinates.
-/
namespace Kirino
namespace Auth
namespace Webauthn

open Lib (debugText ok_of_bind ok_of_mapError)
open Lib.Cbor (beBytes)

structure AttestedCredential where
  credentialId : List UInt8
  publicKeyCose : List UInt8
  aaguid : List UInt8
  backupEligible : Bool
  backupState : Bool
deriving DecidableEq, Repr

structure RegistrationOutputs where
  rpIdHash : List UInt8
  credential : AttestedCredential
  signCount : Nat
  userVerified : Bool
deriving DecidableEq, Repr

/-- The fields seen of an attestation object. -/
structure AttestationFields where
  fmt : Option String
  authData : Option ByteSlice
  attStmtSeenEmpty : Bool

def scanField (seen : AttestationFields) (entry : CborValue × CborValue) : Except Fault AttestationFields :=
  match entry.1.asText with
  | none => .error (.error "non-text map key in attestationObject")
  | some "fmt" =>
    match entry.2 with
    | .text f => .ok { seen with fmt := some f }
    | _ => .error (.error "fmt must be text")
  | some "attStmt" =>
    match entry.2 with
    | .map [] => .ok { seen with attStmtSeenEmpty := true }
    | _ => .error (.error "attStmt must be an empty map for fmt=none")
  | some "authData" =>
    match entry.2 with
    | .bytes b => .ok { seen with authData := some b }
    | _ => .error (.error "authData must be bytes")
  | some _ => .ok seen

section Crates
variable {K : Type} (C : WebauthnCrates K)

def parseAttestationObject (bytes : List UInt8) : Except Fault (String × ByteSlice) := do
  let value ← (C.fromReader bytes).mapError (fun e => .error ("attestationObject CBOR invalid: " ++ e))
  match value with
  | .map m => do
    let seen ← m.foldlM scanField ⟨none, none, false⟩
    match seen.fmt, seen.attStmtSeenEmpty, seen.authData with
    | some fmt, true, some authData => .ok (fmt, authData)
    | _, false, _ => .error (.error "missing or non-empty attStmt for fmt=none")
    | none, _, _ => .error (.error "missing fmt")
    | _, _, none => .error (.error "missing authData")
  | _ => .error (.error "attestationObject is not a CBOR map")

def utf8 (text : String) : List UInt8 := text.toUTF8.data.toList

/-- The checks of the authenticator data, and the credential that it carries. -/
def checkAuthData (ad : AuthenticatorData) (rpId : String) : Except Fault AttestedCredentialData :=
  if ad.userPresent = false then .error (.error "UP flag not set at registration")
  else if ad.rpIdHash ≠ C.sha256 (utf8 rpId) then .error (.error ("rpIdHash mismatch for RP " ++ debugText C.unprintable rpId))
  else if hasFlag ad.flags flagAt = false then .error (.error "AT flag not set or credential data missing")
  else orError "AT flag not set or credential data missing" ad.attested

def verifyAttestationNone (attestationObject : List UInt8) (rpId : String) : Except Fault RegistrationOutputs := do
  let (fmt, authData) ← parseAttestationObject C attestationObject
  if fmt ≠ "none" then .error (.error ("unsupported attestation format " ++ debugText C.unprintable fmt ++ " (policy: none)"))
  else do
    let ad ← AuthenticatorData.parse authData
    let attested ← checkAuthData C ad rpId
    let cose ← (C.coseKeyFromSlice attested.credentialPublicKeyCbor).mapError
      (fun e => .error ("credential public key CBOR invalid: " ++ e))
    validateSupportedKey cose
    .ok
      { rpIdHash := ad.rpIdHash
        signCount := ad.signCount
        userVerified := ad.userVerified
        credential :=
          { credentialId := attested.credentialId
            publicKeyCose := attested.credentialPublicKeyCbor
            aaguid := attested.aaguid
            backupEligible := ad.backupEligible
            backupState := ad.backupState } }

/-- The attestation object carries the key. -/
def CarriesKey (attestationObject : List UInt8) (key : CoseKey) : Prop :=
  ∃ fmt authData ad attested, parseAttestationObject C attestationObject = .ok (fmt, authData) ∧
    AuthenticatorData.parse authData = .ok ad ∧ ad.attested = some attested ∧
    C.coseKeyFromSlice attested.credentialPublicKeyCbor = .ok key

variable {C}

theorem attested_of_checkAuthData {ad : AuthenticatorData} {rpId : String} {attested : AttestedCredentialData}
    (h : checkAuthData C ad rpId = .ok attested) : ad.attested = some attested := by
  unfold checkAuthData at h
  split at h
  · cases h
  split at h
  · cases h
  split at h
  · cases h
  · cases hattested : ad.attested with
    | none =>
      rw [hattested] at h
      cases h
    | some a =>
      rw [hattested] at h
      exact congrArg some (Except.ok.inj h)

/-- **What registration has checked of the key that it stores.** -/
theorem key_of_verify {attestationObject : List UInt8} {rpId : String} {outputs : RegistrationOutputs}
    (h : verifyAttestationNone C attestationObject rpId = .ok outputs) :
    ∃ fmt authData ad attested key, parseAttestationObject C attestationObject = .ok (fmt, authData) ∧
      AuthenticatorData.parse authData = .ok ad ∧ ad.attested = some attested ∧
      C.coseKeyFromSlice attested.credentialPublicKeyCbor = .ok key ∧ checkAlg key = .ok () ∧
      outputs.credential.publicKeyCose = attested.credentialPublicKeyCbor := by
  unfold verifyAttestationNone at h
  obtain ⟨⟨fmt, authData⟩, hobject, h⟩ := ok_of_bind h
  dsimp only at h
  split at h
  · cases h
  · obtain ⟨ad, hparse, h⟩ := ok_of_bind h
    obtain ⟨attested, hattested, h⟩ := ok_of_bind h
    obtain ⟨key, hkey, h⟩ := ok_of_bind h
    obtain ⟨⟨⟩, halg, h⟩ := ok_of_bind h
    obtain rfl := Except.ok.inj h
    exact ⟨fmt, authData, ad, attested, key, hobject, hparse, attested_of_checkAuthData hattested, ok_of_mapError hkey,
      halg, rfl⟩

/-- **A registered key is usable exactly when it is a point on P-256**: for every attestation object that is accepted. -/
theorem usable_iff (hC : C.Lawful) (attestationObject : List UInt8) (rpId : String) (outputs : RegistrationOutputs)
    (h : verifyAttestationNone C attestationObject rpId = .ok outputs) :
    (∃ k, keyFromCose C outputs.credential.publicKeyCose = .ok k) ↔
      ∃ key, CarriesKey C attestationObject key ∧ IsP256Key key := by
  obtain ⟨fmt, authData, ad, attested, key, hobject, hparse, hattested, hkey, halg, hstored⟩ := key_of_verify h
  have hdecode : keyFromCose C outputs.credential.publicKeyCose = verifyingKeyOf C key := by
    unfold keyFromCose
    rw [hstored, hkey]
    rfl
  rw [hdecode, verifyingKeyOf_iff hC halg]
  constructor
  · exact fun hpoint => ⟨key, ⟨fmt, authData, ad, attested, hobject, hparse, hattested, hkey⟩, hpoint⟩
  · rintro ⟨key', ⟨fmt', authData', ad', attested', hobject', hparse', hattested', hkey'⟩, hpoint⟩
    obtain ⟨-, rfl⟩ := Prod.mk.inj (Except.ok.inj (hobject.symm.trans hobject'))
    obtain rfl := Except.ok.inj (hparse.symm.trans hparse')
    obtain rfl := Option.some.inj (hattested.symm.trans hattested')
    obtain rfl := Except.ok.inj (hkey.symm.trans hkey')
    exact hpoint

end Crates
/-! ## Two registrations -/

/-- The coordinates of the base point of P-256. -/
def basePoint : List UInt8 :=
  [0x6b, 0x17, 0xd1, 0xf2, 0xe1, 0x2c, 0x42, 0x47, 0xf8, 0xbc, 0xe6, 0xe5, 0x63, 0xa4, 0x40, 0xf2, 0x77, 0x03, 0x7d, 0x81,
    0x2d, 0xeb, 0x33, 0xa0, 0xf4, 0xa1, 0x39, 0x45, 0xd8, 0x98, 0xc2, 0x96, 0x4f, 0xe3, 0x42, 0xe2, 0xfe, 0x1a, 0x7f, 0x9b,
    0x8e, 0xe7, 0xeb, 0x4a, 0x7c, 0x0f, 0x9e, 0x16, 0x2b, 0xce, 0x33, 0x57, 0x6b, 0x31, 0x5e, 0xce, 0xcb, 0xb6, 0x40, 0x68,
    0x37, 0xbf, 0x51, 0xf5]

/-- The hash of `rp.example`. -/
def exampleHash : List UInt8 :=
  [0x14, 0xb3, 0x6c, 0xd6, 0x75, 0x8a, 0x6a, 0xc4, 0x12, 0x6a, 0x65, 0xfb, 0x82, 0xfd, 0x4f, 0xb9, 0x60, 0x09, 0x9b, 0x44,
    0x2d, 0x8e, 0xf2, 0x9c, 0x9e, 0x0b, 0xbe, 0xf1, 0x31, 0xd4, 0xa8, 0x60]

/-- The map `{1: 1, 3: -7}`, an OKP key for ES256. -/
def okpKey : List UInt8 := [0xa2, 0x01, 0x01, 0x03, 0x26]

/-- The map `{1: 2, 3: -7, -1: 1, -2: x, -3: y}`, the base point as a key for ES256. -/
def ec2Key : List UInt8 :=
  [0xa5, 0x01, 0x02, 0x03, 0x26, 0x20, 0x01, 0x21, 0x58, 0x20] ++ basePoint.take 32 ++ [0x22, 0x58, 0x20] ++ basePoint.drop 32

/-- Authenticator data for `rp.example`, with the flags UP and AT, and a credential of this key. -/
def exampleAuthData (key : List UInt8) : List UInt8 :=
  exampleHash ++ [0x41] ++ beBytes 4 0 ++ List.replicate 16 0 ++ beBytes 2 1 ++ [0x07] ++ key

/-- The head and the first entries of `{"fmt": "none", "attStmt": {}, "authData": ..}`, up to the length of the data. -/
def attestationStart : List UInt8 :=
  [0xa3, 0x63, 0x66, 0x6d, 0x74, 0x64, 0x6e, 0x6f, 0x6e, 0x65, 0x67, 0x61, 0x74, 0x74, 0x53, 0x74, 0x6d, 0x74, 0xa0, 0x68,
    0x61, 0x75, 0x74, 0x68, 0x44, 0x61, 0x74, 0x61, 0x58]

def exampleAttestation (key : List UInt8) : List UInt8 :=
  attestationStart ++ [UInt8.ofNat (exampleAuthData key).length] ++ exampleAuthData key

/-- The object that begins so, with a length of one byte. -/
def readAttestation (bytes : List UInt8) : Except String CborValue :=
  let data := bytes.drop 30
  if bytes.take 29 = attestationStart ∧ bytes[29]? = some (UInt8.ofNat data.length) then
    if h : data.length < 256 then
      .ok (.map [(.text "fmt", .text "none"), (.text "attStmt", .map []),
        (.text "authData", .bytes ⟨data, Nat.lt_trans h (by decide)⟩)])
    else .error "unexpected length"
  else .error "unexpected input"

def decodedOkp : CoseKey := ⟨.assigned 1, some (.assigned (-7)), []⟩

def decodedEc2 : CoseKey :=
  ⟨.assigned 2, some (.assigned (-7)), [(.int (-1), .integer 1), (.int (-2), .bytes ⟨basePoint.take 32, by decide⟩),
    (.int (-3), .bytes ⟨basePoint.drop 32, by decide⟩)]⟩

/-- Libraries for a test: the object and the keys above, and the points of the curve. -/
def exampleCrates : WebauthnCrates (List UInt8) where
  fromReader := readAttestation
  coseKeyFromSlice bytes :=
    if bytes = okpKey then .ok decodedOkp
    else if bytes = ec2Key then .ok decodedEc2
    else .error "unexpected key"
  debugKeyType
    | .assigned 1 => "Assigned(OKP)"
    | _ => "Assigned(EC2)"
  unprintable _ := false
  sha256 bytes := if bytes = utf8 "rp.example" then exampleHash else []
  fromSec1Bytes
    | 0x04 :: rest => if IsP256Point rest then .ok rest else .error "signature error"
    | _ => .error "signature error"

theorem exampleCrates_lawful : exampleCrates.Lawful where
  fromSec1Bytes_iff bytes := by
    show (∃ key, (if IsP256Point bytes then Except.ok bytes else .error "signature error") = .ok key) ↔ _
    by_cases h : IsP256Point bytes <;> simp [h]

def exampleOutputs (key : List UInt8) : RegistrationOutputs :=
  ⟨exampleHash, ⟨[0x07], key, List.replicate 16 0, false, false⟩, 0, false⟩

/-- The base point is registered, and its key is usable. -/
theorem usable_basePoint : ∃ k, keyFromCose exampleCrates ec2Key = .ok k := by
  have hverify : verifyAttestationNone exampleCrates (exampleAttestation ec2Key) "rp.example" =
      .ok (exampleOutputs ec2Key) := by decide +kernel
  refine (usable_iff exampleCrates_lawful _ _ _ hverify).2 ?_
  obtain ⟨fmt, authData, ad, attested, key, hobject, hparse, hattested, hkey, -, hstored⟩ := key_of_verify hverify
  refine ⟨key, ⟨fmt, authData, ad, attested, hobject, hparse, hattested, hkey⟩, ?_⟩
  have hdecoded : exampleCrates.coseKeyFromSlice ec2Key = .ok decodedEc2 := by
    have hne : ec2Key ≠ okpKey := by decide
    simp only [exampleCrates, if_neg hne, if_true]
  rw [← hstored] at hkey
  obtain rfl : decodedEc2 = key := Except.ok.inj (hdecoded.symm.trans hkey)
  exact ⟨rfl, by decide, basePoint.take 32, basePoint.drop 32, rfl, rfl, by decide +kernel⟩

/-- An OKP key that names ES256 is registered, and is never usable. -/
theorem okpKey_unusable :
    verifyAttestationNone exampleCrates (exampleAttestation okpKey) "rp.example" = .ok (exampleOutputs okpKey) ∧
      ∀ k, keyFromCose exampleCrates (exampleOutputs okpKey).credential.publicKeyCose ≠ .ok k := by
  have hrefused : keyFromCose exampleCrates (exampleOutputs okpKey).credential.publicKeyCose =
      .error (.error "unsupported key type: expected EC2, got Assigned(OKP)") := by decide +kernel
  refine ⟨by decide +kernel, fun k hk => ?_⟩
  cases hrefused.symm.trans hk

end Webauthn
end Auth
end Kirino
