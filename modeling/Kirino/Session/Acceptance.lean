import Kirino.Session.Manager
/-!
# Acceptance — when a token is accepted, by its header, its claims and its signature

The manager's two verifiers are written differently: one hands the token to the JWT library, the other takes it apart.
What the libraries document (`Crates.Documented`) lets both be read as one list of conditions on the token
(`verifyJsonwebtoken_eq_ok_iff`, `verifyMldsa65_eq_ok_iff`), and lets a signed token be read back.
-/
namespace Kirino
namespace Session

open Lib (asI64 ok_of_bind ok_of_mapError sumI64)

/-! ## The parts of a token -/

/-- The name of an algorithm in a JOSE header. -/
def Algorithm.name : Algorithm → String
  | .hs256 => "HS256"
  | .edDsa => "EdDSA"

/-- The header that a token's first segment encodes. -/
def headerOf (L : Crates) (token : String) : Option JoseHeader :=
  match segments token with
  | some (h, _, _) => (L.b64uDecode h).toOption.bind (fun bytes => (L.headerFromSlice bytes).toOption)
  | none => none

/-- The claims that a token's second segment encodes. -/
def claimsOf (L : Crates) (token : String) : Option TokenClaims :=
  match segments token with
  | some (_, p, _) => (L.b64uDecode p).toOption.bind (fun bytes => (L.claimsFromSlice bytes).toOption)
  | none => none

/-- The algorithm that a token's header names. -/
def algOf (L : Crates) (token : String) : Option String := (headerOf L token).bind JoseHeader.alg

/-- The key id that a token's header names. -/
def kidOf (L : Crates) (token : String) : Option String := (headerOf L token).bind JoseHeader.kid

/-- The third segment is an ML-DSA-65 signature of the first two under one of the keys. -/
def MlSigned (L : Crates) (verifying : List L.MlVerifyingKey) (token : String) : Prop :=
  ∃ h p s bytes sig, segments token = some (h, p, s) ∧ L.b64uDecode s = .ok bytes ∧ L.mlDecodeSignature bytes = some sig ∧
    ∃ key ∈ verifying, L.mlVerify key (h ++ "." ++ p) sig = true

/-- What the library makes of the `aud` claim under a validation. -/
def Validation.audAccepts (v : Validation) (aud : Option String) : Bool :=
  match v.audience, aud with
  | some expected, some aud => decide (aud = expected)
  | some _, none => !v.requireAud
  | none, some _ => false
  | none, none => !v.requireAud

/-- The registered claims pass the library's validation at the instant; `nbf` is not among them. -/
structure Validation.Accepts (v : Validation) (now : Nat) (c : TokenClaims) : Prop where
  exp : v.validateExp = true → now ≤ c.exp + validationLeeway
  iss : c.iss = v.issuer
  aud : v.audAccepts c.aud = true

instance (v : Validation) (now : Nat) (c : TokenClaims) : Decidable (v.Accepts now c) :=
  decidable_of_iff ((v.validateExp = true → now ≤ c.exp + validationLeeway) ∧ c.iss = v.issuer ∧ v.audAccepts c.aud = true)
    ⟨fun h => ⟨h.1, h.2.1, h.2.2⟩, fun h => ⟨h.exp, h.iss, h.aud⟩⟩

/-! ## What the libraries document -/

/-- What the libraries document, in full: `signed key alg token` is the JWT library's check of the token's structure and of
its signature, under the key and for the algorithm.  The library subtracts the leeway from an unsigned clock, so that
where it checks the expiry it accepts as documented from the leeway on.  A serialization of a header or of claims does not
fail, and reads back. -/
structure Crates.Documented (L : Crates) (signed : L.DecodingKey → Algorithm → String → Bool) : Prop where
  b64u_dot : ∀ bytes, '.' ∉ (L.b64uEncode bytes).toList
  b64u_decode : ∀ bytes, L.b64uDecode (L.b64uEncode bytes) = .ok bytes
  claims_written : ∀ c, ∃ bytes, L.claimsToVec c = .ok bytes
  claims_read : ∀ {c bytes}, L.claimsToVec c = .ok bytes → L.claimsFromSlice bytes = .ok c
  header_written : ∀ header, ∃ bytes, L.headerToVec header = .ok bytes
  header_read : ∀ {header bytes}, L.headerToVec header = .ok bytes → L.headerFromSlice bytes = .ok header
  signature_read : ∀ sig, L.mlDecodeSignature (L.mlEncodeSignature sig) = some sig
  decode_ok : ∀ {token key v now c}, L.decode token key v now = .ok c → signed key v.algorithm token = true ∧
    algOf L token = some v.algorithm.name ∧ claimsOf L token = some c ∧ v.Accepts now c
  decode_of_accepts : ∀ {token key v now c}, (v.validateExp = true → validationLeeway ≤ now) →
    signed key v.algorithm token = true → algOf L token = some v.algorithm.name → claimsOf L token = some c →
      v.Accepts now c → L.decode token key v now = .ok c
  encode_ok : ∀ {header c ek token}, L.encode header c ek = .ok token →
    headerOf L token = some ⟨some header.alg.name, header.kid⟩ ∧ claimsOf L token = some c

/-- The two keys are a key pair of the JWT library: what one signs, the other verifies. -/
def SigningPair {L : Crates} (signed : L.DecodingKey → Algorithm → String → Bool) (alg : Algorithm)
    (encoding : L.EncodingKey) (decoding : L.DecodingKey) : Prop :=
  ∀ header c, header.alg = alg → ∃ token, L.encode header c encoding = .ok token ∧ signed decoding alg token = true

/-- The two keys are a key pair of ML-DSA-65. -/
def MlSigningPair {L : Crates} (signing : L.MlSigningKey) (verifying : L.MlVerifyingKey) : Prop :=
  ∀ input, L.mlVerify verifying input (L.mlSign signing input) = true

section
variable {L : Crates} {signed : L.DecodingKey → Algorithm → String → Bool}

theorem Crates.Documented.lawful (hD : L.Documented signed) : L.Lawful where
  decode_unique h h' := by
    have hc := (hD.decode_ok h).2.2.1
    rw [(hD.decode_ok h').2.2.1] at hc
    exact (Option.some.inj hc).symm
  decode_encode he hd := by
    have hc := (hD.decode_ok hd).2.2.1
    rw [(hD.encode_ok he).2] at hc
    exact (Option.some.inj hc).symm
  decode_exp h hv := (hD.decode_ok h).2.2.2.exp hv
  b64u_dot := hD.b64u_dot
  b64u_decode := hD.b64u_decode
  claims_read := hD.claims_read

/-! ## Reading the parts -/

theorem toOption_bind_eq_some_iff {ε ε' α β : Type} {x : Except ε α} {f : α → Except ε' β} {b : β} :
    x.toOption.bind (fun a => (f a).toOption) = some b ↔ ∃ a, x = .ok a ∧ f a = .ok b := by
  simp only [Option.bind_eq_some_iff, Lib.toOption_eq_some_iff]

theorem headerOf_eq_some_iff {token h p s : String} (hseg : segments token = some (h, p, s)) {header : JoseHeader} :
    headerOf L token = some header ↔ ∃ bytes, L.b64uDecode h = .ok bytes ∧ L.headerFromSlice bytes = .ok header := by
  unfold headerOf
  rw [hseg]
  exact toOption_bind_eq_some_iff

theorem claimsOf_eq_some_iff {token h p s : String} (hseg : segments token = some (h, p, s)) {c : TokenClaims} :
    claimsOf L token = some c ↔ ∃ bytes, L.b64uDecode p = .ok bytes ∧ L.claimsFromSlice bytes = .ok c := by
  unfold claimsOf
  rw [hseg]
  exact toOption_bind_eq_some_iff

theorem b64uDecode_eq_ok_iff {segment : String} {bytes : List UInt8} :
    b64uDecode L segment = .ok bytes ↔ L.b64uDecode segment = .ok bytes := by
  unfold b64uDecode
  cases L.b64uDecode segment <;> simp [Except.mapError]

/-! ## The JWT library's path -/

/-- **Trying the keys finds the claims exactly when one key decodes them**, a token having one set of claims. -/
theorem tryKeys_eq_ok_iff (hL : L.Lawful) {token : String} {v : Validation} {now : Nat} {c : TokenClaims} :
    ∀ (last : Option JwtError) (keys : List L.DecodingKey),
      tryKeys token v now last keys = .ok c ↔ ∃ key ∈ keys, L.decode token key v now = .ok c
  | _, [] => by simp [tryKeys]
  | last, key :: keys => by
    rw [tryKeys]
    cases hd : L.decode token key v now with
    | ok c' =>
      constructor
      · intro h
        obtain rfl : c' = c := Except.ok.inj h
        exact ⟨key, List.mem_cons_self, hd⟩
      · rintro ⟨key', -, hkey'⟩
        exact congrArg Except.ok (hL.decode_unique hd hkey')
    | error e =>
      dsimp only
      rw [tryKeys_eq_ok_iff hL (some e) keys]
      simp [hd]

namespace TokenManager

variable {m : TokenManager L}

/-- The audience test of the manager's validation is that the claim is the configured one, present or not. -/
theorem audAccepts_validation (checkExp : Bool) (aud : Option String) :
    (m.validation checkExp).audAccepts aud = true ↔ aud = m.config.audience := by
  unfold Validation.audAccepts validation
  dsimp only
  cases m.config.audience <;> cases aud <;> simp

/-- What the library's path accepts: the token is validly signed, and its claims pass the path's tests. -/
def JwtAccepts (m : TokenManager L) (signed : L.DecodingKey → Algorithm → String → Bool) (now : Nat) (token : String)
    (keys : List L.DecodingKey) (checkExp : Bool) (c : TokenClaims) : Prop :=
  (∃ key ∈ keys, signed key m.keys.algorithm token = true) ∧ algOf L token = some m.keys.algorithm.name ∧
    claimsOf L token = some c ∧ c.iss = m.config.issuer ∧ c.aud = m.config.audience ∧
      (checkExp = true → now ≤ c.exp + validationLeeway)

/-- **What the library's path accepts passes its tests.** -/
theorem jwtAccepts_of_verifyJsonwebtoken (hD : L.Documented signed) {now : Nat} {token : String}
    {keys : List L.DecodingKey} {checkExp : Bool} {c : TokenClaims}
    (h : m.verifyJsonwebtoken now token keys checkExp = .ok c) : m.JwtAccepts signed now token keys checkExp c := by
  obtain ⟨key, hkey, hd⟩ := verifyJsonwebtoken_ok h
  obtain ⟨hsigned, halg, hclaims, haccepts⟩ := hD.decode_ok hd
  exact ⟨⟨key, hkey, hsigned⟩, halg, hclaims, haccepts.iss, (audAccepts_validation checkExp c.aud).1 haccepts.aud,
    haccepts.exp⟩

/-- **When the library's path accepts**, from the leeway on where it checks the expiry. -/
theorem verifyJsonwebtoken_eq_ok_iff (hD : L.Documented signed) {now : Nat} {token : String} {keys : List L.DecodingKey}
    {checkExp : Bool} (hclock : checkExp = true → validationLeeway ≤ now) {c : TokenClaims} :
    m.verifyJsonwebtoken now token keys checkExp = .ok c ↔ m.JwtAccepts signed now token keys checkExp c := by
  refine ⟨jwtAccepts_of_verifyJsonwebtoken hD, ?_⟩
  rintro ⟨⟨key, hkey, hsigned⟩, halg, hclaims, hiss, haud, hexp⟩
  have hdecode := hD.decode_of_accepts (v := m.validation checkExp) hclock hsigned halg hclaims
    ⟨hexp, hiss, (audAccepts_validation checkExp c.aud).2 haud⟩
  unfold verifyJsonwebtoken
  rw [(tryKeys_eq_ok_iff hD.lawful none keys).2 ⟨key, hkey, hdecode⟩]

/-! ## The ML-DSA-65 path -/

/-- The kid test: both sides have one and they differ, or the header passes. -/
def KidPasses (configured presented : Option String) : Prop :=
  ∀ kid kid', configured = some kid → presented = some kid' → kid = kid'

/-- The audience test of the ML-DSA-65 path. -/
def AudPasses (configured aud : Option String) : Prop := ∀ expected, configured = some expected → aud = some expected

theorem checkHeader_eq_ok_iff {header : JoseHeader} :
    m.checkHeader header = .ok () ↔ header.alg = some mlDsa65Alg ∧ KidPasses m.config.kid header.kid := by
  unfold checkHeader KidPasses
  by_cases halg : header.alg = some mlDsa65Alg
  · rw [if_neg (not_not_intro halg)]
    cases m.config.kid with
    | none => simp [halg]
    | some configured =>
      cases header.kid with
      | none => simp [halg]
      | some presented =>
        dsimp only
        by_cases hkid : configured = presented <;> simp [halg, hkid]
  · rw [if_pos halg]
    simp [halg]

theorem checkRegistered_eq_ok_iff {claims : TokenClaims} :
    m.checkRegistered claims = .ok () ↔ claims.iss = m.config.issuer ∧ AudPasses m.config.audience claims.aud := by
  unfold checkRegistered AudPasses
  by_cases hiss : claims.iss = m.config.issuer
  · rw [if_neg (not_not_intro hiss)]
    cases m.config.audience with
    | none => simp [hiss]
    | some expected =>
      dsimp only
      by_cases haud : claims.aud = some expected <;> simp [hiss, haud]
  · rw [if_pos hiss]
    simp [hiss]

/-- What the last test of the path, the signature's, has found. -/
theorem signed_of_tail {token h p s : String} (hseg : segments token = some (h, p, s))
    {verifying : List L.MlVerifyingKey} {claims c : TokenClaims}
    (hok : (b64uDecode L s).bind (fun sigBytes =>
      match L.mlDecodeSignature sigBytes with
      | none => .error (invalid "malformed ML-DSA-65 signature")
      | some sig =>
        if verifying.any (fun key => L.mlVerify key (h ++ "." ++ p) sig) then .ok claims
        else .error (invalid "signature verification failed against every configured ML-DSA-65 key")) = .ok c) :
    MlSigned L verifying token ∧ claims = c := by
  obtain ⟨bytes, hbytes, hok⟩ := ok_of_bind hok
  cases hsig : L.mlDecodeSignature bytes with
  | none => rw [hsig] at hok; cases hok
  | some sig =>
    rw [hsig] at hok
    dsimp only at hok
    by_cases hany : verifying.any (fun key => L.mlVerify key (h ++ "." ++ p) sig) = true
    · rw [if_pos hany] at hok
      obtain ⟨key, hkey, hverify⟩ := List.any_eq_true.1 hany
      exact ⟨⟨h, p, s, bytes, sig, hseg, b64uDecode_eq_ok_iff.1 hbytes, hsig, key, hkey, hverify⟩, Except.ok.inj hok⟩
    · rw [if_neg hany] at hok
      cases hok

/-- **When the hand-written path accepts.** -/
theorem verifyMldsa65_eq_ok_iff {now : Nat} {token : String} {verifying : List L.MlVerifyingKey} {checkExp : Bool}
    {c : TokenClaims} : m.verifyMldsa65 now token verifying checkExp = .ok c ↔
      (∃ header, headerOf L token = some header ∧ header.alg = some mlDsa65Alg ∧ KidPasses m.config.kid header.kid) ∧
        claimsOf L token = some c ∧ c.iss = m.config.issuer ∧ AudPasses m.config.audience c.aud ∧
          (checkExp = true → checkExpiry L.overflowChecks now c = .ok ()) ∧ MlSigned L verifying token := by
  constructor
  · intro h
    unfold verifyMldsa65 at h
    cases hseg : segments token with
    | none => rw [hseg] at h; cases h
    | some seg =>
      obtain ⟨hd, p, s⟩ := seg
      rw [hseg] at h
      dsimp only at h
      obtain ⟨headerBytes, hheaderBytes, h⟩ := ok_of_bind h
      obtain ⟨header, hheader, h⟩ := ok_of_bind h
      obtain ⟨⟨⟩, hcheck, h⟩ := ok_of_bind h
      obtain ⟨bytes, hbytes, h⟩ := ok_of_bind h
      obtain ⟨claims, hclaims, h⟩ := ok_of_bind h
      obtain ⟨⟨⟩, hregistered, h⟩ := ok_of_bind h
      obtain ⟨hpassed, hkid⟩ := checkHeader_eq_ok_iff.1 hcheck
      obtain ⟨hiss, haud⟩ := checkRegistered_eq_ok_iff.1 hregistered
      have hexp : (checkExp = true → checkExpiry L.overflowChecks now claims = .ok ()) ∧ MlSigned L verifying token ∧ claims = c := by
        cases checkExp with
        | true =>
          obtain ⟨⟨⟩, hexp, h⟩ := ok_of_bind h
          exact ⟨fun _ => hexp, signed_of_tail hseg h⟩
        | false => exact ⟨nofun, signed_of_tail hseg h⟩
      obtain ⟨hexp, hsigned, rfl⟩ := hexp
      refine ⟨⟨header, (headerOf_eq_some_iff hseg).2 ⟨headerBytes, b64uDecode_eq_ok_iff.1 hheaderBytes,
        ok_of_mapError hheader⟩, hpassed, hkid⟩, ?_, hiss, haud, hexp, hsigned⟩
      exact (claimsOf_eq_some_iff hseg).2 ⟨bytes, b64uDecode_eq_ok_iff.1 hbytes, ok_of_mapError hclaims⟩
  · rintro ⟨⟨header, hheader, halg, hkid⟩, hclaims, hiss, haud, hexp, hd, p, s, bytes, sig, hseg, hbytes, hsig, key, hkey,
      hverify⟩
    obtain ⟨headerBytes, hheaderBytes, hheader⟩ := (headerOf_eq_some_iff hseg).1 hheader
    obtain ⟨claimBytes, hclaimBytes, hclaims⟩ := (claimsOf_eq_some_iff hseg).1 hclaims
    have hcheck := checkHeader_eq_ok_iff.2 ⟨halg, hkid⟩
    have hregistered := checkRegistered_eq_ok_iff.2 ⟨hiss, haud⟩
    have hany : verifying.any (fun key => L.mlVerify key (hd ++ "." ++ p) sig) = true := List.any_eq_true.2 ⟨key, hkey, hverify⟩
    unfold verifyMldsa65
    rw [hseg]
    dsimp only
    rw [b64uDecode_eq_ok_iff.2 hheaderBytes, b64uDecode_eq_ok_iff.2 hclaimBytes, b64uDecode_eq_ok_iff.2 hbytes]
    simp only [bind, Except.bind, hheader, Except.mapError, hcheck, hclaims, hregistered, hsig, hany, if_true]
    cases checkExp with
    | true => simp only [hexp rfl, if_true]
    | false => rfl

/-- **The expiry test is the library's** as long as the sum of expiry and leeway stays in range. -/
theorem checkExpiry_eq_ok_iff {overflowChecks : Bool} {now : Nat} {c : TokenClaims}
    (h : c.exp + validationLeeway < 2 ^ 63) :
    checkExpiry overflowChecks now c = .ok () ↔ now ≤ c.exp + validationLeeway := by
  unfold validationLeeway at h ⊢
  have hcast : asI64 c.exp = c.exp := Lib.asI64_of_lt (by omega)
  have hrange : Lib.inI64 (asI64 c.exp + verifyLeewaySecs) = true := by
    unfold Lib.inI64 verifyLeewaySecs
    rw [hcast, decide_eq_true_iff]
    omega
  unfold checkExpiry
  rw [Lib.sumI64_of_inI64 hrange, hcast]
  unfold verifyLeewaySecs
  dsimp only
  by_cases hlate : (now : Int) > c.exp + 60
  · rw [if_pos hlate]
    have : ¬ now ≤ c.exp + 60 := by omega
    simp [this]
  · rw [if_neg hlate]
    have : now ≤ c.exp + 60 := by omega
    simp [this]

/-- Out of range, the sum panics or is negative, whatever the clock. -/
theorem checkExpiry_ne_ok {overflowChecks : Bool} {now : Nat} {c : TokenClaims} (hexp : c.exp < 2 ^ 63)
    (h : 2 ^ 63 ≤ c.exp + validationLeeway) : checkExpiry overflowChecks now c ≠ .ok () := by
  unfold validationLeeway at h
  have hcast : asI64 c.exp = c.exp := Lib.asI64_of_lt hexp
  unfold checkExpiry
  rw [hcast]
  cases hsum : sumI64 overflowChecks c.exp verifyLeewaySecs with
  | none => exact nofun
  | some limit =>
    have hneg := Lib.sumI64_eq_some_neg (by unfold verifyLeewaySecs; omega) (by unfold verifyLeewaySecs; omega) hsum
    dsimp only
    rw [if_pos (by omega)]
    exact nofun

/-- Beyond the range the test fails at some instant of the token's life: the sum panics or wraps, or the cast makes the
expiry negative. -/
theorem exists_checkExpiry_ne_ok {overflowChecks : Bool} {c : TokenClaims} (hexp : c.exp < 2 ^ 64)
    (h : 2 ^ 63 ≤ c.exp + validationLeeway) :
    ∃ now ≤ c.exp + validationLeeway, checkExpiry overflowChecks now c ≠ .ok () := by
  by_cases hrange : c.exp < 2 ^ 63
  · exact ⟨0, Nat.zero_le _, checkExpiry_ne_ok hrange h⟩
  · refine ⟨validationLeeway, Nat.le_add_left _ _, fun hok => ?_⟩
    have hcast : asI64 c.exp = (c.exp : Int) - 2 ^ 64 := Lib.asI64_of_not_lt hrange
    unfold checkExpiry at hok
    cases hsum : sumI64 overflowChecks (asI64 c.exp) verifyLeewaySecs with
    | none => rw [hsum] at hok; cases hok
    | some limit =>
      have hlow := Lib.le_asI64 c.exp
      have hlimit := Lib.le_of_sumI64 (by unfold verifyLeewaySecs; omega) hsum
      unfold verifyLeewaySecs at hlimit
      have hlate : (validationLeeway : Int) > limit := by
        unfold validationLeeway
        omega
      rw [hsum] at hok
      dsimp only at hok
      rw [if_pos hlate] at hok
      cases hok

/-! ## Both paths at once -/

/-- The algorithm of the key profile. -/
def ownAlg : KeySet L → Option String
  | .sharedSecret _ _ => some "HS256"
  | .ed25519 _ _ => some "EdDSA"
  | .mlDsa65 _ _ => some mlDsa65Alg
  | .broken _ => none

/-- The token's signature is valid under a verifying key of the set. -/
def SignedUnder (signed : L.DecodingKey → Algorithm → String → Bool) (keys : KeySet L) (token : String) : Prop :=
  match keys with
  | .sharedSecret _ decoding => signed decoding .hs256 token = true
  | .ed25519 _ decoding => ∃ key ∈ decoding, signed key .edDsa token = true
  | .mlDsa65 _ verifying => MlSigned L verifying token
  | .broken _ => False

/-- The tests in which the two paths differ: the kid, the audience and the expiry. -/
def PathAccepts (m : TokenManager L) (kid : Option String) (now : Nat) (checkExp : Bool) (c : TokenClaims) : Prop :=
  match m.keys with
  | .mlDsa65 _ _ => KidPasses m.config.kid kid ∧ AudPasses m.config.audience c.aud ∧
      (checkExp = true → checkExpiry L.overflowChecks now c = .ok ())
  | _ => c.aud = m.config.audience ∧ (checkExp = true → now ≤ c.exp + validationLeeway)

/-- The clock is one at which the profile's path checks the expiry as documented: from the leeway on, or any for the path
of ML-DSA-65. -/
def ClockFits (keys : KeySet L) (now : Nat) : Prop :=
  match keys with
  | .mlDsa65 _ _ => True
  | _ => validationLeeway ≤ now

/-- What a manager accepts: the algorithm is its own, the signature that of a key of its set, and the claims pass the tests
of its path. -/
def Accepts (m : TokenManager L) (signed : L.DecodingKey → Algorithm → String → Bool) (now : Nat) (token : String)
    (checkExp : Bool) (c : TokenClaims) : Prop :=
  algOf L token = ownAlg m.keys ∧ SignedUnder signed m.keys token ∧ claimsOf L token = some c ∧ c.iss = m.config.issuer ∧
    m.PathAccepts (kidOf L token) now checkExp c

theorem verifyMldsa65_accepts_iff {now : Nat} {token : String} {checkExp : Bool} {c : TokenClaims}
    {signing : Option L.MlSigningKey} {verifying : List L.MlVerifyingKey} (hk : m.keys = .mlDsa65 signing verifying) :
    m.verifyMldsa65 now token verifying checkExp = .ok c ↔ m.Accepts signed now token checkExp c := by
  unfold Accepts PathAccepts SignedUnder ownAlg algOf kidOf
  rw [verifyMldsa65_eq_ok_iff, hk]
  constructor
  · rintro ⟨⟨header, hheader, halg, hkid⟩, hclaims, hiss, haud, hexp, hsigned⟩
    rw [hheader]
    exact ⟨halg, hsigned, hclaims, hiss, hkid, haud, hexp⟩
  · rintro ⟨halg, hsigned, hclaims, hiss, hkid, haud, hexp⟩
    obtain ⟨header, hheader, halg⟩ := Option.bind_eq_some_iff.1 halg
    rw [hheader] at hkid
    exact ⟨⟨header, hheader, halg, hkid⟩, hclaims, hiss, haud, hexp, hsigned⟩

/-- The JWT library's path is one of a shared secret or of Ed25519 keys. -/
theorem jwtAccepts_iff {now : Nat} {token : String} {checkExp : Bool} {c : TokenClaims} {keys : List L.DecodingKey}
    (hk : (∃ encoding decoding, m.keys = .sharedSecret encoding decoding ∧ keys = [decoding]) ∨
      ∃ encoding, m.keys = .ed25519 encoding keys) :
    m.JwtAccepts signed now token keys checkExp c ↔ m.Accepts signed now token checkExp c := by
  unfold Accepts JwtAccepts PathAccepts SignedUnder ownAlg
  rcases hk with ⟨encoding, decoding, hk, rfl⟩ | ⟨encoding, hk⟩
  · rw [hk]
    simp only [List.mem_singleton, exists_eq_left, KeySet.algorithm, Algorithm.name]
    exact and_left_comm
  · rw [hk]
    exact and_left_comm

/-- **What a manager accepts passes its tests.** -/
theorem accepts_of_verifyWith (hD : L.Documented signed) {now : Nat} {token : String} {checkExp : Bool} {c : TokenClaims}
    (h : m.verifyWith now token checkExp = .ok c) : m.Accepts signed now token checkExp c := by
  unfold verifyWith at h
  cases hk : m.keys with
  | sharedSecret encoding decoding =>
    rw [hk] at h
    exact (jwtAccepts_iff (Or.inl ⟨encoding, decoding, hk, rfl⟩)).1 (jwtAccepts_of_verifyJsonwebtoken hD h)
  | ed25519 encoding decoding =>
    rw [hk] at h
    exact (jwtAccepts_iff (Or.inr ⟨encoding, hk⟩)).1 (jwtAccepts_of_verifyJsonwebtoken hD h)
  | mlDsa65 signing verifying =>
    rw [hk] at h
    exact (verifyMldsa65_accepts_iff hk).1 h
  | broken text =>
    rw [hk] at h
    cases h

/-- **When a manager accepts a token**, at a clock that fits where it checks the expiry. -/
theorem verifyWith_eq_ok_iff (hD : L.Documented signed) {now : Nat} {token : String} {checkExp : Bool}
    (hclock : checkExp = true → ClockFits m.keys now) {c : TokenClaims} :
    m.verifyWith now token checkExp = .ok c ↔ m.Accepts signed now token checkExp c := by
  refine ⟨accepts_of_verifyWith hD, fun h => ?_⟩
  unfold ClockFits at hclock
  unfold verifyWith
  cases hk : m.keys with
  | sharedSecret encoding decoding =>
    rw [hk] at hclock
    exact (verifyJsonwebtoken_eq_ok_iff hD hclock).2 ((jwtAccepts_iff (Or.inl ⟨encoding, decoding, hk, rfl⟩)).2 h)
  | ed25519 encoding decoding =>
    rw [hk] at hclock
    exact (verifyJsonwebtoken_eq_ok_iff hD hclock).2 ((jwtAccepts_iff (Or.inr ⟨encoding, hk⟩)).2 h)
  | mlDsa65 signing verifying => exact (verifyMldsa65_accepts_iff hk).2 h
  | broken text =>
    have hsigned := h.2.1
    unfold SignedUnder at hsigned
    rw [hk] at hsigned
    exact hsigned.elim

/-! ## What is signed -/

/-- The verifier's set has the public half of the signer's key, of the same profile. -/
def Trusts (signed : L.DecodingKey → Algorithm → String → Bool) (verifier signer : KeySet L) : Prop :=
  match signer, verifier with
  | .sharedSecret encoding _, .sharedSecret _ decoding => SigningPair signed .hs256 encoding decoding
  | .ed25519 (some encoding) _, .ed25519 _ decoding => ∃ key ∈ decoding, SigningPair signed .edDsa encoding key
  | .mlDsa65 (some signing) _, .mlDsa65 _ verifying => ∃ key ∈ verifying, MlSigningPair signing key
  | _, _ => False

/-- The kid that a profile stamps. -/
def stampedKid (m : TokenManager L) : Option String :=
  match m.keys with
  | .sharedSecret _ _ => none
  | _ => m.config.kid

theorem signMldsa65Compact_spec (hD : L.Documented signed) (sk : L.MlSigningKey) (claims : TokenClaims)
    (kid : Option String) : ∃ token, signMldsa65Compact sk claims kid = .ok token ∧
      headerOf L token = some ⟨some mlDsa65Alg, kid⟩ ∧ claimsOf L token = some claims ∧
        ∀ verifying, (∃ key ∈ verifying, MlSigningPair sk key) → MlSigned L verifying token := by
  obtain ⟨headerBytes, hheader⟩ := hD.header_written ⟨some mlDsa65Alg, kid⟩
  obtain ⟨payloadBytes, hpayload⟩ := hD.claims_written claims
  have hseg := segments_join _ _ _ (hD.b64u_dot headerBytes) (hD.b64u_dot payloadBytes)
    (hD.b64u_dot (L.mlEncodeSignature (L.mlSign sk (L.b64uEncode headerBytes ++ "." ++ L.b64uEncode payloadBytes))))
  refine ⟨_, ?_, (headerOf_eq_some_iff hseg).2 ⟨_, hD.b64u_decode _, hD.header_read hheader⟩,
    (claimsOf_eq_some_iff hseg).2 ⟨_, hD.b64u_decode _, hD.claims_read hpayload⟩, ?_⟩
  · unfold signMldsa65Compact
    rw [hheader, hpayload]
    rfl
  · rintro verifying ⟨key, hkey, hpair⟩
    exact ⟨_, _, _, _, _, hseg, hD.b64u_decode _, hD.signature_read _, key, hkey, hpair _⟩

/-- **What a manager signs**: the token names the profile's algorithm and kid, and carries the claims. -/
theorem parts_of_sign (hD : L.Documented signed) {claims : TokenClaims} {token : String}
    (h : m.sign claims = .ok token) : headerOf L token = some ⟨ownAlg m.keys, m.stampedKid⟩ ∧
      claimsOf L token = some claims := by
  unfold sign at h
  unfold stampedKid ownAlg
  cases hk : m.keys with
  | sharedSecret encoding decoding =>
    rw [hk] at h
    exact hD.encode_ok (ok_of_mapError h)
  | ed25519 encoding decoding =>
    rw [hk] at h
    cases encoding with
    | none => cases h
    | some key => exact hD.encode_ok (ok_of_mapError h)
  | mlDsa65 signing verifying =>
    rw [hk] at h
    cases signing with
    | none => cases h
    | some sk =>
      obtain ⟨token', htoken', hheader, hclaims, -⟩ := signMldsa65Compact_spec hD sk claims m.config.kid
      obtain rfl : token' = token := Except.ok.inj (htoken'.symm.trans h)
      exact ⟨hheader, hclaims⟩
  | broken text => rw [hk] at h; cases h

/-- **A manager with a working key signs whatever it is given**, and who trusts the key finds the signature valid. -/
theorem sign_of_trusts (hD : L.Documented signed) {verifier : KeySet L} (h : Trusts signed verifier m.keys)
    (claims : TokenClaims) : ∃ token, m.sign claims = .ok token ∧ SignedUnder signed verifier token ∧
      ownAlg verifier = ownAlg m.keys := by
  unfold sign
  unfold Trusts at h
  unfold SignedUnder ownAlg
  cases hk : m.keys with
  | sharedSecret encoding decoding =>
    rw [hk] at h
    cases verifier with
    | sharedSecret encoding' decoding' =>
      obtain ⟨token, htoken, hsigned⟩ := h ⟨.hs256, none⟩ claims rfl
      refine ⟨token, ?_, hsigned, rfl⟩
      dsimp only
      rw [htoken]
      rfl
    | ed25519 _ _ => exact h.elim
    | mlDsa65 _ _ => exact h.elim
    | broken _ => exact h.elim
  | ed25519 encoding decoding =>
    rw [hk] at h
    cases encoding with
    | none => cases verifier <;> exact h.elim
    | some encoding =>
      cases verifier with
      | ed25519 encoding' decoding' =>
        obtain ⟨key, hkey, hpair⟩ := h
        obtain ⟨token, htoken, hsigned⟩ := hpair ⟨.edDsa, m.config.kid⟩ claims rfl
        refine ⟨token, ?_, ⟨key, hkey, hsigned⟩, rfl⟩
        dsimp only
        rw [htoken]
        rfl
      | sharedSecret _ _ => exact h.elim
      | mlDsa65 _ _ => exact h.elim
      | broken _ => exact h.elim
  | mlDsa65 signing verifying =>
    rw [hk] at h
    cases signing with
    | none => cases verifier <;> exact h.elim
    | some sk =>
      cases verifier with
      | mlDsa65 signing' verifying' =>
        obtain ⟨token, htoken, -, -, hsigned⟩ := signMldsa65Compact_spec hD sk claims m.config.kid
        exact ⟨token, htoken, hsigned verifying' h, rfl⟩
      | sharedSecret _ _ => exact h.elim
      | ed25519 _ _ => exact h.elim
      | broken _ => exact h.elim
  | broken text =>
    rw [hk] at h
    cases verifier <;> exact h.elim

/-- What another manager that trusts the key tests of a signed token. -/
theorem accepts_signed_iff (hD : L.Documented signed) {verifier : TokenManager L}
    (htrusts : Trusts signed verifier.keys m.keys) {claims : TokenClaims} {token : String}
    (hsign : m.sign claims = .ok token) {now : Nat} {checkExp : Bool} {c : TokenClaims} :
    verifier.Accepts signed now token checkExp c ↔ c = claims ∧ claims.iss = verifier.config.issuer ∧
      verifier.PathAccepts m.stampedKid now checkExp claims := by
  obtain ⟨hheader, hclaims⟩ := parts_of_sign hD hsign
  obtain ⟨token', hsign', hsigned, halg⟩ := sign_of_trusts hD htrusts claims
  obtain rfl : token' = token := Except.ok.inj (hsign'.symm.trans hsign)
  unfold Accepts algOf kidOf
  rw [hheader, hclaims, Option.bind_some, Option.bind_some, Option.some.injEq]
  constructor
  · rintro ⟨-, -, rfl, hiss, haccepts⟩
    exact ⟨rfl, hiss, haccepts⟩
  · rintro ⟨rfl, hiss, haccepts⟩
    exact ⟨halg.symm, hsigned, rfl, hiss, haccepts⟩

/-- **When a token that one manager signs is accepted by another that trusts its key.** -/
theorem verifyWith_signed_iff (hD : L.Documented signed) {verifier : TokenManager L}
    (htrusts : Trusts signed verifier.keys m.keys) {claims : TokenClaims} {token : String}
    (hsign : m.sign claims = .ok token) {now : Nat} {checkExp : Bool}
    (hclock : checkExp = true → ClockFits verifier.keys now) {c : TokenClaims} :
    verifier.verifyWith now token checkExp = .ok c ↔ c = claims ∧ claims.iss = verifier.config.issuer ∧
      verifier.PathAccepts m.stampedKid now checkExp claims := by
  rw [verifyWith_eq_ok_iff hD hclock, accepts_signed_iff hD htrusts hsign]

theorem stampedKid_of_trusts {verifier : KeySet L} (htrusts : Trusts signed verifier m.keys) {signing : Option L.MlSigningKey}
    {verifying : List L.MlVerifyingKey} (hk : verifier = .mlDsa65 signing verifying) : m.stampedKid = m.config.kid := by
  subst hk
  unfold stampedKid
  cases hm : m.keys with
  | mlDsa65 _ _ => rfl
  | sharedSecret _ _ => rw [hm] at htrusts; exact htrusts.elim
  | ed25519 encoding _ => rfl
  | broken _ => rfl

/-- **A signed token is accepted for its whole life**, at every clock that fits, exactly when the ML-DSA-65 tests of the
kid and of the expiry's range pass; the other profiles make neither. -/
theorem verify_live_iff (hD : L.Documented signed) {verifier : TokenManager L}
    (htrusts : Trusts signed verifier.keys m.keys) {claims : TokenClaims} {token : String}
    (hsign : m.sign claims = .ok token) (hiss : claims.iss = verifier.config.issuer)
    (haud : claims.aud = verifier.config.audience) (hexp : claims.exp < 2 ^ 64) :
    (∀ now ≤ claims.exp + validationLeeway, ClockFits verifier.keys now → verifier.verify now token = .ok claims) ↔
      ∀ signing verifying, verifier.keys = .mlDsa65 signing verifying →
        KidPasses verifier.config.kid m.config.kid ∧ claims.exp + validationLeeway < 2 ^ 63 := by
  have haccepted : ∀ now, ClockFits verifier.keys now →
      (verifier.verify now token = .ok claims ↔ verifier.PathAccepts m.stampedKid now true claims) := by
    intro now hclock
    unfold verify
    rw [verifyWith_signed_iff hD htrusts hsign (fun _ => hclock)]
    simp [hiss]
  unfold PathAccepts at haccepted
  cases hk : verifier.keys with
  | mlDsa65 signing verifying =>
    simp only [hk] at haccepted
    rw [stampedKid_of_trusts htrusts hk] at haccepted
    constructor
    · rintro h _ _ -
      refine ⟨((haccepted 0 trivial).1 (h 0 (Nat.zero_le _) trivial)).1, ?_⟩
      by_contra hrange
      obtain ⟨now, hnow, hbad⟩ := exists_checkExpiry_ne_ok hexp (Nat.not_lt.1 hrange)
      exact hbad (((haccepted now trivial).1 (h now hnow trivial)).2.2 trivial)
    · intro h now hnow hclock
      obtain ⟨hkid, hrange⟩ := h signing verifying rfl
      refine (haccepted now hclock).2 ⟨hkid, fun expected hexpected => ?_, fun _ => (checkExpiry_eq_ok_iff hrange).2 hnow⟩
      rw [haud, hexpected]
  | sharedSecret encoding decoding =>
    simp only [hk] at haccepted
    exact iff_of_true (fun now hnow hclock => (haccepted now hclock).2 ⟨haud, fun _ => hnow⟩) nofun
  | ed25519 encoding decoding =>
    simp only [hk] at haccepted
    exact iff_of_true (fun now hnow hclock => (haccepted now hclock).2 ⟨haud, fun _ => hnow⟩) nofun
  | broken text =>
    simp only [hk] at haccepted
    exact iff_of_true (fun now hnow hclock => (haccepted now hclock).2 ⟨haud, fun _ => hnow⟩) nofun

end TokenManager
end
end Session
end Kirino
