import Mathlib.Algebra.Group.Nat.Defs
import Kirino.Lib.Fallible
import Kirino.Lib.Text
import Kirino.Session.Token
/-!
# Manager — signing and verifying session tokens (`packages/session/src/manager.rs`, `config.rs`, `error.rs`)

The manager signs and verifies under one key profile: a shared secret or Ed25519 through the JWT library, or ML-DSA-65
through its own code.  What the libraries do (`jsonwebtoken`, `base64`, `serde_json`, `ml_dsa`, `uuid`) and how the build
treats an overflow is the structure `Crates`, and what the results rely on of it, `Crates.Lawful`.  Everything later modules use of a token is that an
accepted one carries the claims it is accepted with (`payload_of_verify`), that it carries one set of claims
(`payload_unique`), and that a signed one carries what was signed (`payload_of_sign`).
-/
namespace Kirino
namespace Session

open Lib (asI64 debugText ok_of_bind ok_of_mapError sumI64)

/-! ## The libraries -/

inductive Algorithm where
  | hs256
  | edDsa
deriving DecidableEq, Repr

structure Header where
  alg : Algorithm
  kid : Option String

inductive JwtErrorKind where
  | expiredSignature
  | other
deriving DecidableEq, Repr

structure JwtError where
  kind : JwtErrorKind
  text : String
deriving DecidableEq, Repr

/-- What the manager sets of the library's validation; `requireAud` is `aud` among the required claims. -/
structure Validation where
  algorithm : Algorithm
  issuer : String
  validateExp : Bool
  audience : Option String
  requireAud : Bool

/-- The library's default leeway, in seconds. -/
def validationLeeway : Nat := 60

/-- The string members of a JOSE header that the manager reads. -/
structure JoseHeader where
  alg : Option String
  kid : Option String

/-- `overflowChecks` is whether the build checks sums for overflow, `unprintable` the standard library's table of the
characters that a debug form escapes. -/
structure Crates where
  overflowChecks : Bool
  unprintable : Char → Bool
  Uuid : Type
  uuidToString : Uuid → String
  uuidParseStr : String → Option Uuid
  EncodingKey : Type
  DecodingKey : Type
  encode : Header → TokenClaims → EncodingKey → Except JwtError String
  decode : String → DecodingKey → Validation → Nat → Except JwtError TokenClaims
  b64uEncode : List UInt8 → String
  b64uDecode : String → Except String (List UInt8)
  headerFromSlice : List UInt8 → Except String JoseHeader
  headerToVec : JoseHeader → Except String (List UInt8)
  claimsFromSlice : List UInt8 → Except String TokenClaims
  claimsToVec : TokenClaims → Except String (List UInt8)
  MlSigningKey : Type
  MlVerifyingKey : Type
  MlSignature : Type
  mlSign : MlSigningKey → String → MlSignature
  mlVerify : MlVerifyingKey → String → MlSignature → Bool
  mlEncodeSignature : MlSignature → List UInt8
  mlDecodeSignature : List UInt8 → Option MlSignature

/-- What the libraries document: a decoded token's claims are its payload, whatever the key and the instant, and the
payload of an encoded token is what was encoded; expiry is checked with the leeway; base64url uses no dot; base64url
and the claims' JSON read back what they wrote. -/
structure Crates.Lawful (L : Crates) : Prop where
  decode_unique : ∀ {token k k' v v' now now' c c'}, L.decode token k v now = .ok c → L.decode token k' v' now' = .ok c' →
    c = c'
  decode_encode : ∀ {header c ek token k v now c'}, L.encode header c ek = .ok token →
    L.decode token k v now = .ok c' → c' = c
  decode_exp : ∀ {token k v now c}, L.decode token k v now = .ok c → v.validateExp = true →
    now ≤ c.exp + validationLeeway
  b64u_dot : ∀ bytes, '.' ∉ (L.b64uEncode bytes).toList
  b64u_decode : ∀ bytes, L.b64uDecode (L.b64uEncode bytes) = .ok bytes
  claims_read : ∀ {c bytes}, L.claimsToVec c = .ok bytes → L.claimsFromSlice bytes = .ok c

/-! ## The manager -/

inductive SessionError where
  | jwt (e : JwtError)
  | invalidToken (text : String)
  | expired (at_ : Nat)
  | revoked
  | signingUnavailable
  | keys (text : String)
  | other (text : String)
deriving DecidableEq, Repr

/-- How a call ends that does not return a value: with an error, or in the panic of an overflowing sum. -/
inductive Fault where
  | error (e : SessionError)
  | panicked
deriving DecidableEq, Repr

abbrev SessionResult (α : Type) := Except Fault α

/-- Of the configuration, what signing, verifying and issuing read. -/
structure SessionConfig where
  accessTtlSecs : Nat
  refreshTtlSecs : Nat
  issuer : String
  audience : Option String
  kid : Option String

inductive KeySet (L : Crates) where
  | sharedSecret (encoding : L.EncodingKey) (decoding : L.DecodingKey)
  | ed25519 (encoding : Option L.EncodingKey) (decoding : List L.DecodingKey)
  | mlDsa65 (signing : Option L.MlSigningKey) (verifying : List L.MlVerifyingKey)
  | broken (text : String)

structure TokenManager (L : Crates) where
  config : SessionConfig
  keys : KeySet L

def mlDsa65Alg : String := "ML-DSA-65"

def verifyLeewaySecs : Int := 60

section
variable {L : Crates}

def KeySet.algorithm : KeySet L → Algorithm
  | .sharedSecret _ _ => .hs256
  | .ed25519 _ _ => .edDsa
  -- neither of the other two key sets gets here: they sign and verify without it
  | .mlDsa65 _ _ => .edDsa
  | .broken _ => .edDsa

def invalid (text : String) : Fault := .error (.invalidToken text)

def b64uDecode (L : Crates) (segment : String) : SessionResult (List UInt8) :=
  (L.b64uDecode segment).mapError (fun e => invalid ("invalid base64url segment: " ++ e))

def signMldsa65Compact (sk : L.MlSigningKey) (claims : TokenClaims) (kid : Option String) : SessionResult String := do
  let headerBytes ← (L.headerToVec ⟨some mlDsa65Alg, kid⟩).mapError
    (fun e => .error (.other ("failed to serialize JOSE header: " ++ e)))
  let payloadBytes ← (L.claimsToVec claims).mapError
    (fun e => .error (.other ("failed to serialize token claims: " ++ e)))
  let signingInput := L.b64uEncode headerBytes ++ "." ++ L.b64uEncode payloadBytes
  let sig := L.mlSign sk signingInput
  return signingInput ++ "." ++ L.b64uEncode (L.mlEncodeSignature sig)

/-- The keys in order: the claims under the first that decodes, or the last error. -/
def tryKeys (token : String) (validation : Validation) (now : Nat) :
    Option JwtError → List L.DecodingKey → Except (Option JwtError) TokenClaims
  | lastErr, [] => .error lastErr
  | _, key :: decoding =>
    match L.decode token key validation now with
    | .ok claims => .ok claims
    | .error e => tryKeys token validation now (some e) decoding

/-- The three segments of a compact JWS. -/
def segments (token : String) : Option (String × String × String) :=
  match (token.toList.splitOn '.').map String.ofList with
  | [h, p, s] => some (h, p, s)
  | _ => none

namespace TokenManager

def sign (m : TokenManager L) (claims : TokenClaims) : SessionResult String :=
  match m.keys with
  | .sharedSecret encoding _ =>
    (L.encode ⟨.hs256, none⟩ claims encoding).mapError (fun e => .error (.jwt e))
  | .ed25519 (some key) _ =>
    (L.encode ⟨.edDsa, m.config.kid⟩ claims key).mapError (fun e => .error (.jwt e))
  | .ed25519 none _ => .error (.error .signingUnavailable)
  | .mlDsa65 (some sk) _ => signMldsa65Compact sk claims m.config.kid
  | .mlDsa65 none _ => .error (.error .signingUnavailable)
  | .broken text => .error (.error (.keys text))

/-- The random identifiers one pair draws: its session id and the two token ids. -/
structure PairIds where
  sid : String
  accessJti : String
  refreshJti : String

def stamp (m : TokenManager L) (c : TokenClaims) : TokenClaims :=
  match m.config.audience with
  | some aud => c.withAudience aud
  | none => c

/-- The claims of one token of a pair. -/
def pairClaims (m : TokenManager L) (now : Nat) (sid jti userId username : String) (roles : List String)
    (tokenType : TokenType) (ttlSecs : Nat) : SessionResult TokenClaims :=
  match TokenClaims.new L.overflowChecks now jti userId username tokenType ttlSecs m.config.issuer with
  | some c => .ok (m.stamp ((c.withSession sid).withRoles roles))
  | none => .error .panicked

def issuePair (m : TokenManager L) (now : Nat) (ids : PairIds) (userId : L.Uuid) (username : String)
    (roles : List String) : SessionResult TokenPair := do
  let accessClaims ← m.pairClaims now ids.sid ids.accessJti (L.uuidToString userId) username roles .access
    m.config.accessTtlSecs
  let access ← m.sign accessClaims
  let refreshClaims ← m.pairClaims now ids.sid ids.refreshJti (L.uuidToString userId) username roles .refresh
    m.config.refreshTtlSecs
  let refresh ← m.sign refreshClaims
  return ⟨access, refresh, "Bearer", m.config.accessTtlSecs⟩

def validation (m : TokenManager L) (checkExp : Bool) : Validation :=
  ⟨m.keys.algorithm, m.config.issuer, checkExp, m.config.audience, m.config.audience.isSome⟩

def verifyJsonwebtoken (m : TokenManager L) (now : Nat) (token : String) (decoding : List L.DecodingKey)
    (checkExp : Bool) : SessionResult TokenClaims :=
  match tryKeys token (m.validation checkExp) now none decoding with
  | .ok claims => .ok claims
  | .error (some e) =>
    if e.kind = .expiredSignature then .error (.error (.expired now)) else .error (.error (.jwt e))
  | .error none => .error (.error (.keys "no verifying keys configured"))

/-- The expiry test of the ML-DSA-65 path. -/
def checkExpiry (overflowChecks : Bool) (now : Nat) (claims : TokenClaims) : SessionResult Unit :=
  match sumI64 overflowChecks (asI64 claims.exp) verifyLeewaySecs with
  | some limit => if now > limit then .error (.error (.expired now)) else .ok ()
  | none => .error .panicked

/-- The tests of the claims before the expiry: issuer, and audience when one is configured. -/
def checkRegistered (m : TokenManager L) (claims : TokenClaims) : SessionResult Unit :=
  if claims.iss ≠ m.config.issuer then
    .error (invalid ("token issuer " ++ debugText L.unprintable claims.iss ++ " does not match the configured issuer " ++
      debugText L.unprintable m.config.issuer))
  else
    match m.config.audience with
    | some expected =>
      if claims.aud ≠ some expected then
        .error (invalid "token audience is missing or does not match the configured one")
      else .ok ()
    | none => .ok ()

/-- The tests of the header: the exact algorithm, and the key id when both sides have one. -/
def checkHeader (m : TokenManager L) (header : JoseHeader) : SessionResult Unit :=
  if header.alg ≠ some mlDsa65Alg then
    .error (invalid ("algorithm " ++
      (match header.alg with | some alg => "Some(" ++ debugText L.unprintable alg ++ ")" | none => "None") ++
      " is not accepted: this manager only takes " ++ mlDsa65Alg ++ " tokens"))
  else
    match m.config.kid, header.kid with
    | some configured, some presented =>
      if configured ≠ presented then
        .error (invalid ("token kid " ++ debugText L.unprintable presented ++ " does not match the configured kid " ++
          debugText L.unprintable configured))
      else .ok ()
    | _, _ => .ok ()

def verifyMldsa65 (m : TokenManager L) (now : Nat) (token : String) (verifying : List L.MlVerifyingKey)
    (checkExp : Bool) : SessionResult TokenClaims :=
  match segments token with
  | none => .error (invalid "not a compact JWS")
  | some (h, p, s) => do
    let header ← (L.headerFromSlice (← b64uDecode L h)).mapError (fun e => invalid ("malformed JOSE header: " ++ e))
    m.checkHeader header
    let claims ← (L.claimsFromSlice (← b64uDecode L p)).mapError (fun e => invalid ("malformed token claims: " ++ e))
    m.checkRegistered claims
    if checkExp then checkExpiry L.overflowChecks now claims
    let sigBytes ← b64uDecode L s
    match L.mlDecodeSignature sigBytes with
    | none => .error (invalid "malformed ML-DSA-65 signature")
    | some sig =>
      if verifying.any (fun key => L.mlVerify key (h ++ "." ++ p) sig) then .ok claims
      else .error (invalid "signature verification failed against every configured ML-DSA-65 key")

def verifyWith (m : TokenManager L) (now : Nat) (token : String) (checkExp : Bool) : SessionResult TokenClaims :=
  match m.keys with
  | .mlDsa65 _ verifying => m.verifyMldsa65 now token verifying checkExp
  | .sharedSecret _ decoding => m.verifyJsonwebtoken now token [decoding] checkExp
  | .ed25519 _ decoding => m.verifyJsonwebtoken now token decoding checkExp
  | .broken text => .error (.error (.keys text))

def verify (m : TokenManager L) (now : Nat) (token : String) : SessionResult TokenClaims := m.verifyWith now token true

def verifyRefreshClaims (m : TokenManager L) (now : Nat) (refreshToken : String) :
    SessionResult (L.Uuid × TokenClaims) := do
  let claims ← m.verify now refreshToken
  if claims.tokenType ≠ .refresh then .error (invalid "expected refresh token")
  match L.uuidParseStr claims.sub with
  | some userId => return (userId, claims)
  | none => .error (invalid "invalid user id in token")

/-- A refresh that leaves the presented token in use. -/
def refresh (m : TokenManager L) (now : Nat) (ids : PairIds) (refreshToken : String) : SessionResult TokenPair := do
  let (userId, claims) ← m.verifyRefreshClaims now refreshToken
  m.issuePair now ids userId claims.username claims.roles

/-! ## What an accepted token carries -/

end TokenManager

theorem tryKeys_ok {token : String} {v : Validation} {now : Nat} {c : TokenClaims} :
    ∀ (last : Option JwtError) (keys : List L.DecodingKey), tryKeys token v now last keys = .ok c →
      ∃ key ∈ keys, L.decode token key v now = .ok c
  | _, [], h => by cases h
  | last, key :: keys, h => by
    rw [tryKeys] at h
    cases hd : L.decode token key v now with
    | ok c' =>
      rw [hd] at h
      obtain rfl : c' = c := Except.ok.inj h
      exact ⟨key, List.mem_cons_self, hd⟩
    | error e =>
      rw [hd] at h
      obtain ⟨key', hmem, hkey'⟩ := tryKeys_ok (some e) keys h
      exact ⟨key', List.mem_cons_of_mem key hmem, hkey'⟩

namespace TokenManager

variable {m : TokenManager L}

/-- The claims are the token's, read as the manager's profile reads them. -/
def Payload (m : TokenManager L) (token : String) (c : TokenClaims) : Prop :=
  match m.keys with
  | .mlDsa65 _ _ => ∃ h p s bytes, segments token = some (h, p, s) ∧ L.b64uDecode p = .ok bytes ∧
      L.claimsFromSlice bytes = .ok c
  | .broken _ => False
  | _ => ∃ key v now, L.decode token key v now = .ok c

theorem verifyJsonwebtoken_ok {now : Nat} {token : String} {keys : List L.DecodingKey} {checkExp : Bool}
    {c : TokenClaims} (h : m.verifyJsonwebtoken now token keys checkExp = .ok c) :
    ∃ key ∈ keys, L.decode token key (m.validation checkExp) now = .ok c := by
  unfold verifyJsonwebtoken at h
  cases ht : tryKeys token (m.validation checkExp) now none keys with
  | ok c' =>
    rw [ht] at h
    rw [← Except.ok.inj h]
    exact tryKeys_ok none keys ht
  | error last =>
    rw [ht] at h
    cases last with
    | none => cases h
    | some e =>
      dsimp only at h
      split at h <;> cases h

theorem checkExpiry_ok {overflowChecks : Bool} {now : Nat} {c : TokenClaims}
    (h : checkExpiry overflowChecks now c = .ok ()) : now ≤ c.exp + validationLeeway := by
  unfold checkExpiry at h
  cases hadd : sumI64 overflowChecks (asI64 c.exp) verifyLeewaySecs with
  | none => rw [hadd] at h; cases h
  | some limit =>
    rw [hadd] at h
    dsimp only at h
    split at h
    · cases h
    · rename_i hle
      have hlow := Lib.le_asI64 c.exp
      have hlimit := Lib.le_of_sumI64 (by unfold verifyLeewaySecs; omega) hadd
      have hcast := Lib.asI64_le c.exp
      unfold verifyLeewaySecs at hlimit
      unfold validationLeeway
      omega

theorem verifyMldsa65_ok {now : Nat} {token : String} {verifying : List L.MlVerifyingKey} {c : TokenClaims}
    (h : m.verifyMldsa65 now token verifying true = .ok c) :
    (∃ h p s bytes, segments token = some (h, p, s) ∧ L.b64uDecode p = .ok bytes ∧ L.claimsFromSlice bytes = .ok c) ∧
      now ≤ c.exp + validationLeeway := by
  unfold verifyMldsa65 at h
  cases hseg : segments token with
  | none => rw [hseg] at h; cases h
  | some seg =>
    obtain ⟨hd, p, s⟩ := seg
    rw [hseg] at h
    dsimp only at h
    obtain ⟨headerBytes, -, h⟩ := ok_of_bind h
    obtain ⟨header, -, h⟩ := ok_of_bind h
    obtain ⟨-, -, h⟩ := ok_of_bind h
    obtain ⟨bytes, hbytes, h⟩ := ok_of_bind h
    obtain ⟨claims, hclaims, h⟩ := ok_of_bind h
    obtain ⟨-, -, h⟩ := ok_of_bind h
    obtain ⟨⟨⟩, hexp, h⟩ := ok_of_bind h
    obtain ⟨sigBytes, -, h⟩ := ok_of_bind h
    have hc : claims = c := by
      split at h
      · cases h
      · split at h
        · exact Except.ok.inj h
        · cases h
    subst hc
    exact ⟨⟨hd, p, s, bytes, rfl, ok_of_mapError hbytes, ok_of_mapError hclaims⟩, checkExpiry_ok hexp⟩

/-- **An accepted token carries the claims it is accepted with, and has not expired beyond the leeway.** -/
theorem payload_of_verify (hL : L.Lawful) {now : Nat} {token : String} {c : TokenClaims} (h : m.verify now token = .ok c) :
    m.Payload token c ∧ now ≤ c.exp + validationLeeway := by
  unfold verify verifyWith at h
  unfold Payload
  cases hk : m.keys with
  | mlDsa65 signing verifying =>
    rw [hk] at h
    exact verifyMldsa65_ok h
  | sharedSecret encoding decoding =>
    rw [hk] at h
    obtain ⟨key, -, hd⟩ := verifyJsonwebtoken_ok h
    exact ⟨⟨key, _, now, hd⟩, hL.decode_exp hd rfl⟩
  | ed25519 encoding decoding =>
    rw [hk] at h
    obtain ⟨key, -, hd⟩ := verifyJsonwebtoken_ok h
    exact ⟨⟨key, _, now, hd⟩, hL.decode_exp hd rfl⟩
  | broken text => rw [hk] at h; cases h

theorem verifyRefreshClaims_eq_ok_iff {now : Nat} {token : String} {userId : L.Uuid} {claims : TokenClaims} :
    m.verifyRefreshClaims now token = .ok (userId, claims) ↔
      m.verify now token = .ok claims ∧ claims.tokenType = .refresh ∧ L.uuidParseStr claims.sub = some userId := by
  unfold verifyRefreshClaims
  cases m.verify now token with
  | error fault => simp [bind, Except.bind]
  | ok c =>
    simp only [bind, Except.bind, Except.ok.injEq]
    by_cases htype : c.tokenType = .refresh
    · rw [if_neg (not_not_intro htype)]
      cases hparse : L.uuidParseStr c.sub with
      | none =>
        refine iff_of_false nofun ?_
        rintro ⟨rfl, -, hsome⟩
        rw [hparse] at hsome
        cases hsome
      | some id =>
        constructor
        · intro h
          obtain ⟨rfl, rfl⟩ := Prod.mk.inj (Except.ok.inj h)
          exact ⟨rfl, htype, hparse⟩
        · rintro ⟨rfl, -, hsome⟩
          rw [hparse] at hsome
          rw [Option.some.inj hsome]
          rfl
    · rw [if_pos htype]
      refine iff_of_false nofun ?_
      rintro ⟨rfl, hrefresh, -⟩
      exact htype hrefresh

theorem payload_of_verifyRefreshClaims (hL : L.Lawful) {now : Nat} {token : String} {userId : L.Uuid} {c : TokenClaims}
    (h : m.verifyRefreshClaims now token = .ok (userId, c)) : m.Payload token c ∧ now ≤ c.exp + validationLeeway :=
  payload_of_verify hL (verifyRefreshClaims_eq_ok_iff.1 h).1

theorem payload_unique (hL : L.Lawful) {token : String} {c c' : TokenClaims} (h : m.Payload token c)
    (h' : m.Payload token c') : c = c' := by
  unfold Payload at h h'
  cases hk : m.keys with
  | mlDsa65 signing verifying =>
    rw [hk] at h h'
    obtain ⟨hd, p, s, bytes, hseg, hbytes, hclaims⟩ := h
    obtain ⟨hd', p', s', bytes', hseg', hbytes', hclaims'⟩ := h'
    obtain ⟨rfl, rfl, rfl⟩ : hd = hd' ∧ p = p' ∧ s = s' := by
      have := Option.some.inj (hseg.symm.trans hseg')
      simpa using this
    obtain rfl : bytes = bytes' := Except.ok.inj (hbytes.symm.trans hbytes')
    exact Except.ok.inj (hclaims.symm.trans hclaims')
  | sharedSecret encoding decoding =>
    rw [hk] at h h'
    obtain ⟨_, _, _, hd⟩ := h
    obtain ⟨_, _, _, hd'⟩ := h'
    exact hL.decode_unique hd hd'
  | ed25519 encoding decoding =>
    rw [hk] at h h'
    obtain ⟨_, _, _, hd⟩ := h
    obtain ⟨_, _, _, hd'⟩ := h'
    exact hL.decode_unique hd hd'
  | broken text => rw [hk] at h; cases h

theorem segments_join (h p s : String) (hh : '.' ∉ h.toList) (hp : '.' ∉ p.toList) (hs : '.' ∉ s.toList) :
    segments (h ++ "." ++ p ++ "." ++ s) = some (h, p, s) := by
  have hjoin : (h ++ "." ++ p ++ "." ++ s).toList = ['.'].intercalate [h.toList, p.toList, s.toList] := by
    simp [List.intercalate, List.intersperse]
  unfold segments
  rw [hjoin, List.splitOn_intercalate]
  · simp
  · intro l hl
    simp only [List.mem_cons, List.not_mem_nil, or_false] at hl
    rcases hl with rfl | rfl | rfl
    · exact hh
    · exact hp
    · exact hs
  · exact List.cons_ne_nil _ _

/-- **A signed token carries the claims that were signed.** -/
theorem payload_of_sign (hL : L.Lawful) {claims c : TokenClaims} {token : String} (hsign : m.sign claims = .ok token)
    (h : m.Payload token c) : c = claims := by
  unfold Payload at h
  unfold sign at hsign
  cases hk : m.keys with
  | mlDsa65 signing verifying =>
    rw [hk] at h hsign
    cases signing with
    | none => cases hsign
    | some sk =>
      dsimp only at hsign
      unfold signMldsa65Compact at hsign
      obtain ⟨headerBytes, -, hsign⟩ := ok_of_bind hsign
      obtain ⟨payloadBytes, hpayload, hsign⟩ := ok_of_bind hsign
      obtain rfl := Except.ok.inj hsign
      obtain ⟨hd, p, s, bytes, hseg, hbytes, hclaims⟩ := h
      rw [segments_join _ _ _ (hL.b64u_dot _) (hL.b64u_dot _) (hL.b64u_dot _)] at hseg
      obtain ⟨-, rfl, -⟩ : _ = hd ∧ _ = p ∧ _ = s := by simpa using hseg
      obtain rfl : payloadBytes = bytes := Except.ok.inj ((hL.b64u_decode payloadBytes).symm.trans hbytes)
      exact Except.ok.inj (hclaims.symm.trans (hL.claims_read (ok_of_mapError hpayload)))
  | sharedSecret encoding decoding =>
    rw [hk] at h hsign
    obtain ⟨_, _, _, hd⟩ := h
    exact hL.decode_encode (ok_of_mapError hsign) hd
  | ed25519 encoding decoding =>
    rw [hk] at h hsign
    cases encoding with
    | none => cases hsign
    | some key =>
      obtain ⟨_, _, _, hd⟩ := h
      exact hL.decode_encode (ok_of_mapError hsign) hd
  | broken text => rw [hk] at h; cases h

/-! ## What a pair is signed with -/

/-- **The claims of one token of a pair**: the expiry is the sum, modulo the word. -/
theorem claims_of_pairClaims {now : Nat} {sid jti userId username : String} {roles : List String} {tokenType : TokenType}
    {ttlSecs : Nat} {c : TokenClaims} (h : m.pairClaims now sid jti userId username roles tokenType ttlSecs = .ok c) : c =
      { sub := userId, username, tokenType, iat := now, exp := (now + ttlSecs) % 2 ^ 64, iss := m.config.issuer, jti,
        sid := some sid, roles, userId := none, tenantId := none, relayId := none, workspaceId := none, permissions := [],
        aud := m.config.audience } := by
  unfold pairClaims TokenClaims.new at h
  cases hsum : Lib.sumU64 L.overflowChecks now ttlSecs with
  | none => rw [hsum] at h; cases h
  | some exp =>
    obtain rfl := Lib.sumU64_eq_some hsum
    rw [hsum] at h
    dsimp only [Option.map_some] at h
    rw [← Except.ok.inj h]
    unfold stamp
    cases m.config.audience <;> rfl

/-- Below the end of the word it is the sum, in every build. -/
theorem pairClaims_eq {now : Nat} {sid jti userId username : String} {roles : List String} {tokenType : TokenType}
    {ttlSecs : Nat} (h : now + ttlSecs < 2 ^ 64) : m.pairClaims now sid jti userId username roles tokenType ttlSecs = .ok
      { sub := userId, username, tokenType, iat := now, exp := now + ttlSecs, iss := m.config.issuer, jti, sid := some sid,
        roles, userId := none, tenantId := none, relayId := none, workspaceId := none, permissions := [],
        aud := m.config.audience } := by
  unfold pairClaims TokenClaims.new stamp
  rw [Lib.sumU64_of_lt h]
  dsimp only [Option.map_some]
  cases m.config.audience <;> rfl

/-- The claims of the two tokens of a pair, and that they were signed. -/
structure Issued (m : TokenManager L) (now : Nat) (ids : PairIds) (userId : L.Uuid) (username : String)
    (roles : List String) (pair : TokenPair) (access refresh : TokenClaims) : Prop where
  accessClaims : m.pairClaims now ids.sid ids.accessJti (L.uuidToString userId) username roles .access
    m.config.accessTtlSecs = .ok access
  refreshClaims : m.pairClaims now ids.sid ids.refreshJti (L.uuidToString userId) username roles .refresh
    m.config.refreshTtlSecs = .ok refresh
  accessToken : m.sign access = .ok pair.accessToken
  refreshToken : m.sign refresh = .ok pair.refreshToken

theorem issued_of_issuePair {now : Nat} {ids : PairIds} {userId : L.Uuid} {username : String} {roles : List String}
    {pair : TokenPair} (h : m.issuePair now ids userId username roles = .ok pair) :
    ∃ access refresh, m.Issued now ids userId username roles pair access refresh := by
  unfold issuePair at h
  obtain ⟨access, haccess, h⟩ := ok_of_bind h
  obtain ⟨accessToken, hsignAccess, h⟩ := ok_of_bind h
  obtain ⟨refresh, hrefresh, h⟩ := ok_of_bind h
  obtain ⟨refreshToken, hsignRefresh, h⟩ := ok_of_bind h
  obtain rfl := Except.ok.inj h
  exact ⟨access, refresh, haccess, hrefresh, hsignAccess, hsignRefresh⟩

/-- **A manager that signs issues a pair** as long as both expiries are in range. -/
theorem issuePair_of_sign (hsigns : ∀ claims, ∃ token, m.sign claims = .ok token) {now : Nat}
    (haccess : now + m.config.accessTtlSecs < 2 ^ 64) (hrefresh : now + m.config.refreshTtlSecs < 2 ^ 64) (ids : PairIds)
    (userId : L.Uuid) (username : String) (roles : List String) :
    ∃ pair, m.issuePair now ids userId username roles = .ok pair := by
  obtain ⟨access, haccess⟩ : ∃ access, m.pairClaims now ids.sid ids.accessJti (L.uuidToString userId) username roles
    .access m.config.accessTtlSecs = .ok access := ⟨_, pairClaims_eq haccess⟩
  obtain ⟨refresh, hrefresh⟩ : ∃ refresh, m.pairClaims now ids.sid ids.refreshJti (L.uuidToString userId) username roles
    .refresh m.config.refreshTtlSecs = .ok refresh := ⟨_, pairClaims_eq hrefresh⟩
  obtain ⟨accessToken, hsignAccess⟩ := hsigns access
  obtain ⟨refreshToken, hsignRefresh⟩ := hsigns refresh
  refine ⟨⟨accessToken, refreshToken, "Bearer", m.config.accessTtlSecs⟩, ?_⟩
  unfold issuePair
  simp only [bind, Except.bind, haccess, hsignAccess, hrefresh, hsignRefresh]
  rfl

/-- **An issued refresh token carries its session, and expires no later than the refresh TTL after the issue.** -/
theorem refreshClaims_of_issuePair (hL : L.Lawful) {now : Nat} {ids : PairIds} {userId : L.Uuid} {username : String}
    {roles : List String} {pair : TokenPair} (h : m.issuePair now ids userId username roles = .ok pair) :
    ∃ claims : TokenClaims, claims.sid = some ids.sid ∧ claims.exp ≤ now + m.config.refreshTtlSecs ∧
      ∀ c, m.Payload pair.refreshToken c → c = claims := by
  obtain ⟨_, claims, hissued⟩ := issued_of_issuePair h
  obtain rfl := claims_of_pairClaims hissued.refreshClaims
  exact ⟨_, rfl, Nat.mod_le _ _, fun c hpay => payload_of_sign hL hissued.refreshToken hpay⟩

end TokenManager

end

/-! ## A library of known tokens -/

/-- One byte as one character that is not a dot. -/
def byteChar (b : UInt8) : Char := Char.ofNat (b.toNat + 256)

/-- Libraries for a test: the tokens and their claims are a table, and a token decodes under the shared secret "secret"
with the library's checks of algorithm, issuer and expiry; it subtracts the leeway from an unsigned clock. -/
def tableCrates (overflowChecks : Bool) (table : List (String × TokenClaims)) : Crates where
  overflowChecks
  unprintable _ := false
  Uuid := String
  uuidToString := id
  uuidParseStr := some
  EncodingKey := String
  DecodingKey := String
  encode _ c _ :=
    match table.find? (fun e => decide (e.2 = c ∧ table.lookup e.1 = some c)) with
    | some e => .ok e.1
    | none => .error ⟨.other, "unknown claims"⟩
  decode token key v now :=
    match table.lookup token with
    | some c =>
      if v.validateExp = true ∧ (now < validationLeeway ∨ c.exp + validationLeeway < now) then .error ⟨.expiredSignature, "ExpiredSignature"⟩
      else if v.algorithm = .hs256 ∧ key = "secret" ∧ c.iss = v.issuer then .ok c
      else .error ⟨.other, "InvalidToken"⟩
    | none => .error ⟨.other, "InvalidToken"⟩
  b64uEncode bytes := String.ofList (bytes.map byteChar)
  b64uDecode s := .ok (s.toList.map (fun c => UInt8.ofNat (c.toNat - 256)))
  headerFromSlice _ := .error "unknown header"
  headerToVec _ := .error "unknown header"
  claimsFromSlice _ := .error "unknown claims"
  claimsToVec _ := .error "unknown claims"
  MlSigningKey := Unit
  MlVerifyingKey := Unit
  MlSignature := Unit
  mlSign _ _ := ()
  mlVerify _ _ _ := false
  mlEncodeSignature _ := []
  mlDecodeSignature _ := none

theorem byteChar_toNat (b : UInt8) : (byteChar b).toNat = b.toNat + 256 := by
  have hb : b.toNat < 256 := b.toNat_lt
  have hvalid : (b.toNat + 256).isValidChar := Or.inl (by omega)
  unfold byteChar Char.ofNat
  rw [dif_pos hvalid]
  rfl

theorem dot_not_mem_byteChars (bytes : List UInt8) : '.' ∉ (String.ofList (bytes.map byteChar)).toList := by
  intro hdot
  simp only [String.toList_ofList, List.mem_map] at hdot
  obtain ⟨b, -, hb⟩ := hdot
  have := congrArg Char.toNat hb
  rw [byteChar_toNat] at this
  have hdotNat : '.'.toNat = 46 := rfl
  omega

theorem bytes_of_byteChars (bytes : List UInt8) :
    (String.ofList (bytes.map byteChar)).toList.map (fun c => UInt8.ofNat (c.toNat - 256)) = bytes := by
  simp only [String.toList_ofList, List.map_map]
  conv => rhs; rw [← List.map_id bytes]
  refine List.map_congr_left (fun b _ => ?_)
  simp only [Function.comp_apply, byteChar_toNat, Nat.add_sub_cancel, UInt8.ofNat_toNat, id_eq]

theorem tableCrates_decode {overflowChecks : Bool} {table : List (String × TokenClaims)} {token : String} {key : String}
    {v : Validation} {now : Nat} {c : TokenClaims}
    (h : (tableCrates overflowChecks table).decode token key v now = .ok c) :
    table.lookup token = some c ∧ (v.validateExp = true → now ≤ c.exp + validationLeeway) := by
  simp only [tableCrates] at h
  cases hl : table.lookup token with
  | none => rw [hl] at h; cases h
  | some c' =>
    rw [hl] at h
    dsimp only at h
    split at h
    · cases h
    · rename_i hexp
      split at h
      · obtain rfl := Except.ok.inj h
        exact ⟨rfl, fun hv => Nat.not_lt.1 (fun hlt => hexp ⟨hv, Or.inr hlt⟩)⟩
      · cases h

theorem tableCrates_lawful (overflowChecks : Bool) (table : List (String × TokenClaims)) :
    (tableCrates overflowChecks table).Lawful where
  decode_unique h h' := Option.some.inj ((tableCrates_decode h).1.symm.trans (tableCrates_decode h').1)
  decode_encode {header c ek token k v now c'} he hd := by
    simp only [tableCrates] at he
    cases hf : table.find? (fun e => decide (e.2 = c ∧ table.lookup e.1 = some c)) with
    | none => rw [hf] at he; cases he
    | some e =>
      rw [hf] at he
      obtain rfl : e.1 = token := Except.ok.inj he
      have hfound := List.find?_some hf
      have hlookup := (of_decide_eq_true hfound).2
      exact Option.some.inj ((tableCrates_decode hd).1.symm.trans hlookup)
  decode_exp h hv := (tableCrates_decode h).2 hv
  b64u_dot := dot_not_mem_byteChars
  b64u_decode bytes := congrArg Except.ok (bytes_of_byteChars bytes)
  claims_read h := by cases h

def testConfig : SessionConfig := ⟨900, 3600, "kirino", none, none⟩

def tableManager (table : List (String × TokenClaims)) : TokenManager (tableCrates true table) :=
  ⟨testConfig, .sharedSecret "secret" "secret"⟩

end Session
end Kirino
