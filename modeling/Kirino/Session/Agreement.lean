import Kirino.Session.PlainCrates
/-!
# Agreement — the hand-written verifier against the library's

Two tokens with the same claims, one of each kind, both validly signed and without a kid, are shown to two managers that
differ in their key sets alone.  The two paths agree on the issuer and on the expiry; on the audience they part where none
is configured and the claims carry one.
-/
namespace Kirino
namespace Session

section
variable {L : Crates} (signed : L.DecodingKey → Algorithm → String → Bool)

/-- A token for each path with the same claims, validly signed under a key of the path's list, without a kid. -/
structure Twins (alg : Algorithm) (decoding : List L.DecodingKey) (verifying : List L.MlVerifyingKey)
    (claims : TokenClaims) (token mlToken : String) : Prop where
  alg_eq : algOf L token = some alg.name
  kid_eq : kidOf L token = none
  claims_eq : claimsOf L token = some claims
  signed : ∃ key ∈ decoding, signed key alg token = true
  mlAlg : algOf L mlToken = some mlDsa65Alg
  mlKid : kidOf L mlToken = none
  mlClaims : claimsOf L mlToken = some claims
  mlSigned : MlSigned L verifying mlToken

/-- Each path accepts its token exactly when the other does, and with the same claims. -/
def PathsAgree (m ml : TokenManager L) (decoding : List L.DecodingKey) (verifying : List L.MlVerifyingKey) (now : Nat)
    (checkExp : Bool) (token mlToken : String) : Prop :=
  ∀ c, ml.verifyMldsa65 now mlToken verifying checkExp = .ok c ↔ m.verifyJsonwebtoken now token decoding checkExp = .ok c

/-- The claims carry an audience that nobody configured, and pass every other test. -/
def UnaskedAudience (config : SessionConfig) (now : Nat) (checkExp : Bool) (claims : TokenClaims) : Prop :=
  config.audience = none ∧ claims.aud.isSome ∧ claims.iss = config.issuer ∧
    (checkExp = true → now ≤ claims.exp + validationLeeway)

variable {signed}

theorem verifyMldsa65_twin_iff {m ml : TokenManager L} (hconfig : ml.config = m.config) {alg : Algorithm}
    {decoding : List L.DecodingKey} {verifying : List L.MlVerifyingKey} {now : Nat} {checkExp : Bool}
    {claims : TokenClaims} (hexp : claims.exp < 2 ^ 62) {token mlToken : String}
    (htwins : Twins signed alg decoding verifying claims token mlToken) (c : TokenClaims) :
    ml.verifyMldsa65 now mlToken verifying checkExp = .ok c ↔ claims = c ∧ claims.iss = m.config.issuer ∧
      TokenManager.AudPasses m.config.audience claims.aud ∧ (checkExp = true → now ≤ claims.exp + validationLeeway) := by
  have hheader : ∃ header, headerOf L mlToken = some header ∧ header.alg = some mlDsa65Alg ∧
      TokenManager.KidPasses m.config.kid header.kid := by
    obtain ⟨header, hheader, halg⟩ := Option.bind_eq_some_iff.1 htwins.mlAlg
    refine ⟨header, hheader, halg, fun kid kid' _ hkid' => ?_⟩
    have hnone := htwins.mlKid
    unfold kidOf at hnone
    rw [hheader, Option.bind_some, hkid'] at hnone
    cases hnone
  have hrange : claims.exp + validationLeeway < 2 ^ 63 := by
    unfold validationLeeway
    omega
  rw [TokenManager.verifyMldsa65_eq_ok_iff, hconfig, htwins.mlClaims, Option.some.injEq]
  constructor
  · rintro ⟨-, rfl, hiss, haud, hexpiry, -⟩
    exact ⟨rfl, hiss, haud, fun hcheck => (TokenManager.checkExpiry_eq_ok_iff hrange).1 (hexpiry hcheck)⟩
  · rintro ⟨rfl, hiss, haud, hexpiry⟩
    exact ⟨hheader, rfl, hiss, haud, fun hcheck => (TokenManager.checkExpiry_eq_ok_iff hrange).2 (hexpiry hcheck),
      htwins.mlSigned⟩

theorem verifyJsonwebtoken_twin_iff (hD : L.Documented signed) {m : TokenManager L} {decoding : List L.DecodingKey}
    {verifying : List L.MlVerifyingKey} {now : Nat} {checkExp : Bool} (hclock : checkExp = true → validationLeeway ≤ now)
    {claims : TokenClaims} {token mlToken : String}
    (htwins : Twins signed m.keys.algorithm decoding verifying claims token mlToken) (c : TokenClaims) :
    m.verifyJsonwebtoken now token decoding checkExp = .ok c ↔ claims = c ∧ claims.iss = m.config.issuer ∧
      claims.aud = m.config.audience ∧ (checkExp = true → now ≤ claims.exp + validationLeeway) := by
  rw [TokenManager.verifyJsonwebtoken_eq_ok_iff hD hclock]
  unfold TokenManager.JwtAccepts
  rw [htwins.claims_eq, Option.some.injEq]
  constructor
  · rintro ⟨-, -, rfl, haccepts⟩
    exact ⟨rfl, haccepts⟩
  · rintro ⟨rfl, haccepts⟩
    exact ⟨htwins.signed, htwins.alg_eq, rfl, haccepts⟩

/-- **The two paths agree on every token but one with an audience that nobody configured**, all else passing, at every
clock from which the library can subtract its leeway. -/
theorem pathsAgree_iff (hD : L.Documented signed) (m ml : TokenManager L) (hconfig : ml.config = m.config)
    (decoding : List L.DecodingKey) (verifying : List L.MlVerifyingKey) (now : Nat) (checkExp : Bool)
    (hclock : checkExp = true → validationLeeway ≤ now) (claims : TokenClaims) (hexp : claims.exp < 2 ^ 62) (token mlToken : String)
    (htwins : Twins signed m.keys.algorithm decoding verifying claims token mlToken) :
    PathsAgree m ml decoding verifying now checkExp token mlToken ↔ ¬ UnaskedAudience m.config now checkExp claims := by
  unfold PathsAgree UnaskedAudience
  simp only [verifyMldsa65_twin_iff hconfig hexp htwins, verifyJsonwebtoken_twin_iff hD hclock htwins]
  constructor
  · rintro h ⟨hnone, hsome, hiss, hexpiry⟩
    have hpasses : TokenManager.AudPasses m.config.audience claims.aud := by
      intro expected hexpected
      rw [hnone] at hexpected
      cases hexpected
    have haud := ((h claims).1 ⟨rfl, hiss, hpasses, hexpiry⟩).2.2.1
    rw [haud, hnone] at hsome
    cases hsome
  · intro h c
    constructor
    · rintro ⟨rfl, hiss, haud, hexpiry⟩
      refine ⟨rfl, hiss, ?_, hexpiry⟩
      cases haudience : m.config.audience with
      | some expected => exact haud expected haudience
      | none =>
        by_contra hne
        exact h ⟨haudience, Option.isSome_iff_ne_none.2 hne, hiss, hexpiry⟩
    · rintro ⟨rfl, hiss, haud, hexpiry⟩
      exact ⟨rfl, hiss, fun expected hexpected => haud.trans hexpected, hexpiry⟩

/-- Twins of any claims, from a manager of each kind. -/
theorem exists_twins (hD : L.Documented signed) {m ml : TokenManager L} {encoding : L.EncodingKey}
    {key : L.DecodingKey} (hkeys : m.keys = .ed25519 (some encoding) [key]) (hpair : SigningPair signed .edDsa encoding key)
    {sk : L.MlSigningKey} {mlKey : L.MlVerifyingKey} (hmlKeys : ml.keys = .mlDsa65 (some sk) [mlKey])
    (hmlPair : MlSigningPair sk mlKey) (hkid : m.config.kid = none) (hmlKid : ml.config.kid = none)
    (claims : TokenClaims) : ∃ token mlToken, Twins signed .edDsa [key] [mlKey] claims token mlToken := by
  have htrusts : TokenManager.Trusts signed m.keys m.keys := by
    rw [hkeys]
    exact ⟨key, List.mem_singleton_self _, hpair⟩
  have hmlTrusts : TokenManager.Trusts signed ml.keys ml.keys := by
    rw [hmlKeys]
    exact ⟨mlKey, List.mem_singleton_self _, hmlPair⟩
  obtain ⟨token, hsign, hsigned, -⟩ := TokenManager.sign_of_trusts hD htrusts claims
  obtain ⟨mlToken, hmlSign, hmlSigned, -⟩ := TokenManager.sign_of_trusts hD hmlTrusts claims
  obtain ⟨hheader, hclaims⟩ := TokenManager.parts_of_sign hD hsign
  obtain ⟨hmlHeader, hmlClaims⟩ := TokenManager.parts_of_sign hD hmlSign
  unfold TokenManager.stampedKid TokenManager.ownAlg at hheader hmlHeader
  rw [hkeys] at hheader hsigned
  rw [hmlKeys] at hmlHeader hmlSigned
  dsimp only at hheader hmlHeader
  refine ⟨token, mlToken, ?_, ?_, hclaims, hsigned, ?_, ?_, hmlClaims, hmlSigned⟩
  · unfold algOf
    rw [hheader]
    rfl
  · unfold kidOf
    rw [hheader]
    exact hkid
  · unfold algOf
    rw [hmlHeader]
    rfl
  · unfold kidOf
    rw [hmlHeader]
    exact hmlKid

end

/-! ## Two tokens of a test -/

def edManager : TokenManager plainCrates := ⟨testConfig, .ed25519 (some "k") ["k"]⟩

def mlManager : TokenManager plainCrates := ⟨testConfig, .mlDsa65 (some plainSeed) [plainPublic plainSeed]⟩

theorem exists_testTwins (aud : Option String) : ∃ token mlToken, Twins (L := plainCrates) plainSigned .edDsa ["k"]
    [plainPublic plainSeed] (audClaims aud) token mlToken := by
  have hkeys : edManager.keys = .ed25519 (some "k") ["k"] := rfl
  have hmlKeys : mlManager.keys = .mlDsa65 (some plainSeed) [plainPublic plainSeed] := rfl
  exact exists_twins plainCrates_documented hkeys (plainEncode_pair .edDsa "k") hmlKeys (plainMlSign_pair plainSeed) rfl rfl
    (audClaims aud)

theorem testTwins_agree : ∃ token mlToken, Twins (L := plainCrates) plainSigned .edDsa ["k"] [plainPublic plainSeed]
    (audClaims none) token mlToken ∧
      PathsAgree edManager mlManager ["k"] [plainPublic plainSeed] 1700000050 true token mlToken := by
  obtain ⟨token, mlToken, htwins⟩ := exists_testTwins none
  refine ⟨token, mlToken, htwins, ?_⟩
  exact (pathsAgree_iff plainCrates_documented edManager mlManager rfl ["k"] [plainPublic plainSeed] 1700000050 true
    (by decide) (audClaims none) (by decide) token mlToken htwins).2 (fun h => nomatch h.2.1)

theorem testTwins_differ : ∃ token mlToken, Twins (L := plainCrates) plainSigned .edDsa ["k"] [plainPublic plainSeed]
    (audClaims (some "api")) token mlToken ∧
      ¬ PathsAgree edManager mlManager ["k"] [plainPublic plainSeed] 1700000050 true token mlToken := by
  obtain ⟨token, mlToken, htwins⟩ := exists_testTwins (some "api")
  refine ⟨token, mlToken, htwins, fun hagree => ?_⟩
  have hml : mlManager.verifyMldsa65 1700000050 mlToken [plainPublic plainSeed] true = .ok (audClaims (some "api")) :=
    (verifyMldsa65_twin_iff (m := edManager) rfl (by decide) htwins _).2 ⟨rfl, rfl, nofun, fun _ => by decide⟩
  have hjwt := (verifyJsonwebtoken_twin_iff (m := edManager) plainCrates_documented (by decide) htwins _).1 ((hagree _).1 hml)
  exact nomatch hjwt.2.2.1

end Session
end Kirino
