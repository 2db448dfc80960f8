import Kirino.Session.KeyPinning
/-!
# Rotation — tokens across configurations of one profile

A token minted under one configuration is presented to the manager of a later one that still lists the minting key.  The
Ed25519 path tries its keys whatever the kid says; the ML-DSA-65 path first compares the kid of the token with its own.
-/
namespace Kirino
namespace Session

section
variable {L : Crates} (K : KeyCrates L) (signed : L.DecodingKey → Algorithm → String → Bool) (mldsa : Bool)

/-- A history of usable configurations of one asymmetric profile, issuer and audience. -/
structure RotationHistory (alg issuer : String) (audience : Option String) (configs : List KeyedConfig) : Prop where
  asymmetric : ∀ config ∈ configs, config.Asymmetric
  resolves : ∀ config ∈ configs, ∀ text, (config.manager K mldsa).keys ≠ .broken text
  alg : ∀ config ∈ configs, config.alg = alg
  issuer : ∀ config ∈ configs, config.issuer = issuer
  audience : ∀ config ∈ configs, config.audience = audience

/-- The token is signed by the manager with claims of its own issuer and audience. -/
structure Mints (m : TokenManager L) (claims : TokenClaims) (token : String) : Prop where
  sign : m.sign claims = .ok token
  iss : claims.iss = m.config.issuer
  aud : claims.aud = m.config.audience
  exp : claims.exp < 2 ^ 64

/-- The token is accepted with its claims at every instant up to its expiry and the leeway at which the clock fits. -/
def Lives (m : TokenManager L) (claims : TokenClaims) (token : String) : Prop :=
  ∀ now ≤ claims.exp + validationLeeway, TokenManager.ClockFits m.keys now → m.verify now token = .ok claims

/-- The token is minted under a configuration of the history, and a later one lists the minting key. -/
structure MintedEarlier (configs : List KeyedConfig) (minter verifier : KeyedConfig) (claims : TokenClaims)
    (token : String) : Prop where
  order : ∃ i j : Nat, i ≤ j ∧ configs[i]? = some minter ∧ configs[j]? = some verifier
  half : minter.HalfListed K signed verifier
  mints : Mints (minter.manager K mldsa) claims token

/-- A token minted under one configuration lives under every later one that lists the minting key. -/
def RotationKeepsTokens (configs : List KeyedConfig) : Prop :=
  ∀ (minter verifier : KeyedConfig) (claims : TokenClaims) (token : String),
    MintedEarlier K signed mldsa configs minter verifier claims token → Lives (verifier.manager K mldsa) claims token

/-- The same, the ML-DSA-65 profile comparing the kids: it accepts a token while the two kids do not differ and the expiry
leaves room for the leeway, and never accepts one with a kid other than its own. -/
structure RotationKeepsKids (alg : String) (configs : List KeyedConfig) : Prop where
  ed25519 : alg = "EdDSA" → RotationKeepsTokens K signed mldsa configs
  mlDsa65 : alg = mlDsa65Alg → ∀ (minter verifier : KeyedConfig) (claims : TokenClaims) (token : String),
    MintedEarlier K signed mldsa configs minter verifier claims token →
      (TokenManager.KidPasses verifier.kid minter.kid → claims.exp + validationLeeway < 2 ^ 63 →
        Lives (verifier.manager K mldsa) claims token) ∧
      (¬ TokenManager.KidPasses verifier.kid minter.kid → ∀ now c, (verifier.manager K mldsa).verify now token ≠ .ok c)

variable {K signed mldsa}

/-- Both tokens of an issued pair are minted. -/
theorem mints_of_issued {m : TokenManager L} {now : Nat} {ids : TokenManager.PairIds} {userId : L.Uuid}
    {username : String} {roles : List String} {pair : TokenPair} {access refresh : TokenClaims}
    (h : m.Issued now ids userId username roles pair access refresh) :
    Mints m access pair.accessToken ∧ Mints m refresh pair.refreshToken := by
  have hmints : ∀ {sid jti : String} {tokenType : TokenType} {ttlSecs : Nat} {claims : TokenClaims} {token : String},
      m.pairClaims now sid jti (L.uuidToString userId) username roles tokenType ttlSecs = .ok claims →
        m.sign claims = .ok token → Mints m claims token := by
    intro sid jti tokenType ttlSecs claims token hclaims hsign
    obtain rfl := TokenManager.claims_of_pairClaims hclaims
    exact ⟨hsign, rfl, rfl, Nat.mod_lt _ (by decide)⟩
  exact ⟨hmints h.accessClaims h.accessToken, hmints h.refreshClaims h.refreshToken⟩

section History
variable {alg issuer : String} {audience : Option String} {configs : List KeyedConfig}

theorem resolved_of_history (hhistory : RotationHistory K mldsa alg issuer audience configs) {config : KeyedConfig}
    (hmem : config ∈ configs) :
    Resolved K config (KeySet.resolve K mldsa config.ed25519 config.mldsa65 config.secret) := by
  rcases resolve_cases K mldsa config with ⟨text, htext⟩ | hres
  · exact absurd htext (hhistory.resolves config hmem text)
  · exact hres

/-- **The verifier trusts the minter's key.** -/
theorem trusts_of_mintedEarlier (hhistory : RotationHistory K mldsa alg issuer audience configs)
    {minter verifier : KeyedConfig} {claims : TokenClaims} {token : String}
    (h : MintedEarlier K signed mldsa configs minter verifier claims token) :
    minter ∈ configs ∧ verifier ∈ configs ∧
      TokenManager.Trusts signed (verifier.manager K mldsa).keys (minter.manager K mldsa).keys := by
  obtain ⟨i, j, -, hi, hj⟩ := h.order
  have hminter := List.mem_of_getElem? hi
  have hverifier := List.mem_of_getElem? hj
  have hres := resolved_of_history hhistory hminter
  refine ⟨hminter, hverifier, trusts_of_halfListed h.half hres (resolved_of_history hhistory hverifier)
    (hhistory.asymmetric minter hminter) ?_ ?_⟩
  · rw [hhistory.alg minter hminter, hhistory.alg verifier hverifier]
  · intro honly
    have hsign := h.mints.sign
    rw [sign_of_verifyOnly hres honly rfl] at hsign
    cases hsign

/-- The ML-DSA-65 profile of a history is its managers'. -/
theorem mlDsa65_of_history (hhistory : RotationHistory K mldsa alg issuer audience configs) {config : KeyedConfig}
    (hmem : config ∈ configs) :
    alg = mlDsa65Alg ↔ ∃ signing verifying, (config.manager K mldsa).keys = .mlDsa65 signing verifying := by
  have howns : TokenManager.ownAlg (config.manager K mldsa).keys = some alg := by
    rw [← hhistory.alg config hmem]
    exact ownAlg_of_resolved (resolved_of_history hhistory hmem)
  cases hk : (config.manager K mldsa).keys with
  | mlDsa65 signing verifying =>
    rw [hk] at howns
    exact iff_of_true (Option.some.inj howns).symm ⟨signing, verifying, rfl⟩
  | sharedSecret _ _ =>
    rw [hk] at howns
    obtain rfl := Option.some.inj howns
    simp [mlDsa65Alg]
  | ed25519 _ _ =>
    rw [hk] at howns
    obtain rfl := Option.some.inj howns
    simp [mlDsa65Alg]
  | broken _ =>
    rw [hk] at howns
    cases howns

/-- **When a minted token lives**: always under Ed25519; under ML-DSA-65 while the kids pass and the expiry leaves room for
the leeway. -/
theorem lives_iff (hD : L.Documented signed) (hhistory : RotationHistory K mldsa alg issuer audience configs)
    {minter verifier : KeyedConfig} {claims : TokenClaims} {token : String}
    (h : MintedEarlier K signed mldsa configs minter verifier claims token) :
    Lives (verifier.manager K mldsa) claims token ↔
      (alg = mlDsa65Alg → TokenManager.KidPasses verifier.kid minter.kid ∧ claims.exp + validationLeeway < 2 ^ 63) := by
  obtain ⟨hminter, hverifier, htrusts⟩ := trusts_of_mintedEarlier hhistory h
  have hiss : claims.iss = (verifier.manager K mldsa).config.issuer := by
    rw [h.mints.iss]
    exact (hhistory.issuer minter hminter).trans (hhistory.issuer verifier hverifier).symm
  have haud : claims.aud = (verifier.manager K mldsa).config.audience := by
    rw [h.mints.aud]
    exact (hhistory.audience minter hminter).trans (hhistory.audience verifier hverifier).symm
  have hml := mlDsa65_of_history hhistory hverifier
  unfold Lives
  rw [TokenManager.verify_live_iff hD htrusts h.mints.sign hiss haud h.mints.exp]
  constructor
  · intro hlive halg
    obtain ⟨signing, verifying, hk⟩ := hml.1 halg
    exact hlive signing verifying hk
  · intro hlive signing verifying hk
    exact hlive (hml.2 ⟨signing, verifying, hk⟩)

/-- Under ML-DSA-65 a token with a kid other than the verifier's is accepted at no instant. -/
theorem verify_ne_ok_of_kid (hD : L.Documented signed) (hhistory : RotationHistory K mldsa alg issuer audience configs)
    (halg : alg = mlDsa65Alg) {minter verifier : KeyedConfig} {claims : TokenClaims} {token : String}
    (h : MintedEarlier K signed mldsa configs minter verifier claims token)
    (hkid : ¬ TokenManager.KidPasses verifier.kid minter.kid) (now : Nat) (c : TokenClaims) :
    (verifier.manager K mldsa).verify now token ≠ .ok c := by
  obtain ⟨-, hverifier, htrusts⟩ := trusts_of_mintedEarlier hhistory h
  obtain ⟨signing, verifying, hk⟩ := (mlDsa65_of_history hhistory hverifier).1 halg
  intro hverify
  obtain ⟨-, -, haccepts⟩ := (TokenManager.accepts_signed_iff hD htrusts h.mints.sign).1
    (TokenManager.accepts_of_verifyWith hD hverify)
  unfold TokenManager.PathAccepts at haccepts
  rw [hk, TokenManager.stampedKid_of_trusts htrusts hk] at haccepts
  exact hkid haccepts.1

/-- **Rotation keeps the tokens alive**, up to the kid that the ML-DSA-65 profile compares. -/
theorem rotationKeepsKids (hD : L.Documented signed) (hhistory : RotationHistory K mldsa alg issuer audience configs) :
    RotationKeepsKids K signed mldsa alg configs := by
  refine ⟨fun halg minter verifier claims token h => ?_, fun halg minter verifier claims token h => ⟨?_, ?_⟩⟩
  · refine (lives_iff hD hhistory h).2 (fun hml => ?_)
    rw [halg] at hml
    exact absurd hml (by decide)
  · intro hkid hrange
    exact (lives_iff hD hhistory h).2 (fun _ => ⟨hkid, hrange⟩)
  · exact verify_ne_ok_of_kid hD hhistory halg h

end History
end

/-! ## A change of the kid -/

/-- An issuer of the ML-DSA-65 profile with a kid. -/
def kidConfig (kid : String) : KeyedConfig := (plainConfig 900).withKid kid

/-- The kid changes, the keys stay. -/
def kidHistory : List KeyedConfig := [kidConfig "pq-old", kidConfig "pq-new"]

theorem kidConfig_keys (kid : String) :
    ((kidConfig kid).manager plainKeys true).keys = .mlDsa65 (some plainSeed) [plainPublic plainSeed] := rfl

theorem kidConfig_half (kid kid' : String) : (kidConfig kid).HalfListed plainKeys plainSigned (kidConfig kid') where
  ed25519 _ _ h := nomatch h
  mlDsa65 seed h := by
    obtain rfl : plainSeed = seed := Option.some.inj h
    exact ⟨plainPublic plainSeed, List.mem_singleton_self _, plainMlSign_pair plainSeed⟩

theorem kidHistory_rotates : RotationHistory plainKeys true mlDsa65Alg "kirino" none kidHistory := by
  have hmem : ∀ config ∈ kidHistory, ∃ kid, config = kidConfig kid := by
    intro config hconfig
    rcases List.mem_cons.1 hconfig with rfl | hconfig
    · exact ⟨"pq-old", rfl⟩
    · exact ⟨"pq-new", List.mem_singleton.1 hconfig⟩
  refine ⟨?_, ?_, ?_, ?_, ?_⟩ <;> intro config hconfig <;> obtain ⟨kid, rfl⟩ := hmem config hconfig
  · exact Or.inr rfl
  · intro text htext
    rw [kidConfig_keys] at htext
    cases htext
  · exact if_pos (List.cons_ne_nil _ _)
  · rfl
  · rfl

theorem kidHistory_keepsKids : RotationKeepsKids plainKeys plainSigned true mlDsa65Alg kidHistory :=
  rotationKeepsKids plainCrates_documented kidHistory_rotates

theorem kidHistory_loses : RotationHistory plainKeys true mlDsa65Alg "kirino" none kidHistory ∧
    ¬ RotationKeepsTokens plainKeys plainSigned true kidHistory := by
  refine ⟨kidHistory_rotates, fun hkeeps => ?_⟩
  have htrusts : TokenManager.Trusts plainSigned ((kidConfig "pq-new").manager plainKeys true).keys
      ((kidConfig "pq-old").manager plainKeys true).keys := by
    rw [kidConfig_keys, kidConfig_keys]
    exact ⟨plainPublic plainSeed, List.mem_singleton_self _, plainMlSign_pair plainSeed⟩
  obtain ⟨token, hsign, -⟩ := TokenManager.sign_of_trusts plainCrates_documented htrusts (audClaims none)
  have hminted : MintedEarlier plainKeys plainSigned true kidHistory (kidConfig "pq-old") (kidConfig "pq-new")
      (audClaims none) token :=
    ⟨⟨0, 1, Nat.zero_le 1, rfl, rfl⟩, kidConfig_half "pq-old" "pq-new", hsign, rfl, rfl, by decide⟩
  have hdiffer : ¬ TokenManager.KidPasses (kidConfig "pq-new").kid (kidConfig "pq-old").kid := by
    intro hpasses
    exact absurd (hpasses "pq-new" "pq-old" rfl rfl) (by decide)
  exact verify_ne_ok_of_kid plainCrates_documented kidHistory_rotates rfl hminted hdiffer 0 (audClaims none)
    (hkeeps _ _ _ _ hminted 0 (Nat.zero_le _) trivial)

end Session
end Kirino
