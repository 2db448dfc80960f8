import Mathlib.Data.List.Infix
import Mathlib.Data.List.Forall2
import Kirino.Session.Acceptance
/-!
# KeySet — from the configuration to one key profile (`packages/session/src/manager.rs`, `config.rs`)

The key material of a configuration resolves to one key set, or to a broken one.  `Resolved` says what the three usable
outcomes come from; from it a configuration with asymmetric key material never signs or accepts a token of the shared
secret's algorithm, and a manager accepts what it signs.
-/
namespace Kirino
namespace Session

open Lib (isWhitespace)

/-! ## The configuration -/

structure Ed25519Keys where
  signingPem : Option String
  verifyingPems : List String

structure MlDsa65Keys where
  signingSeed : Option (Vector UInt8 32)
  verifying : List (Vector UInt8 1952)

def Ed25519Keys.configured (ed : Ed25519Keys) : Bool := ed.signingPem.isSome || !ed.verifyingPems.isEmpty

def MlDsa65Keys.configured (ml : MlDsa65Keys) : Bool := ml.signingSeed.isSome || !ml.verifying.isEmpty

/-- The configuration, with its key material. -/
structure KeyedConfig extends SessionConfig where
  secret : String
  ed25519 : Ed25519Keys
  mldsa65 : MlDsa65Keys

namespace KeyedConfig

def new (secret : String) : KeyedConfig where
  secret := secret
  ed25519 := ⟨none, []⟩
  mldsa65 := ⟨none, []⟩
  accessTtlSecs := 900
  refreshTtlSecs := 604800
  issuer := "kirino"
  audience := none
  kid := none

def withTtl (config : KeyedConfig) (accessSecs refreshSecs : Nat) : KeyedConfig :=
  { config with accessTtlSecs := accessSecs, refreshTtlSecs := refreshSecs }

def withKid (config : KeyedConfig) (kid : String) : KeyedConfig := { config with kid := some kid }

def withMldsa65SigningSeed (config : KeyedConfig) (seed : Vector UInt8 32) : KeyedConfig :=
  { config with mldsa65.signingSeed := some seed }

def addMldsa65VerifyingKey (config : KeyedConfig) (key : Vector UInt8 1952) : KeyedConfig :=
  { config with mldsa65.verifying := config.mldsa65.verifying ++ [key] }

end KeyedConfig

/-! ## The raw key of a PEM block -/

def stripCr (line : List Char) : List Char := if line.getLast? = some '\r' then line.dropLast else line

/-- The lines of a text; what follows the last newline is a line when there is something. -/
def textLines (text : List Char) : List (List Char) :=
  let pieces := text.splitOn '\n'
  let last := pieces.getLast?.getD []
  pieces.dropLast.map stripCr ++ if last = [] then [] else [last]

def lineContains (line : List Char) (text : String) : Bool := decide (text.toList <:+: line)

def ed25519SpkiPrefix : List UInt8 := [0x30, 0x2a, 0x30, 0x05, 0x06, 0x03, 0x2b, 0x65, 0x70, 0x03, 0x21, 0x00]

/-- What the libraries make of key material: keys of the secret's bytes, of PEM blocks and of ML-DSA-65 bytes, and the
standard base64 of a PEM body. -/
structure KeyCrates (L : Crates) where
  encodingFromSecret : String → L.EncodingKey
  decodingFromSecret : String → L.DecodingKey
  encodingFromEdPem : String → Except JwtError L.EncodingKey
  decodingFromEdPem : String → Except JwtError L.DecodingKey
  standardDecode : List Char → Option (List UInt8)
  mlSigningKeyFromSeed : Vector UInt8 32 → L.MlSigningKey
  mlVerifyingKeyDecode : Vector UInt8 1952 → L.MlVerifyingKey
  mlVerifyingKeyEncode : L.MlVerifyingKey → Vector UInt8 1952

section
variable {L : Crates} (K : KeyCrates L)

/-- The last 32 of the 44 bytes of a SubjectPublicKeyInfo block with the Ed25519 prefix. -/
def spkiTail (der : List UInt8) : Option (Vector UInt8 32) :=
  if h : der.length = 44 ∧ der.take 12 = ed25519SpkiPrefix then
    some ⟨(der.drop 12).toArray, by
      rw [List.size_toArray, List.length_drop]
      omega⟩
  else none

def ed25519SpkiRaw32 (pem : String) : Option (Vector UInt8 32) :=
  match textLines pem.toList with
  | [] => none
  | first :: lines =>
    if lineContains first "BEGIN PUBLIC KEY" then
      let body := (lines.takeWhile (fun l => !lineContains l "END PUBLIC KEY")).filter (fun l => !l.all isWhitespace)
      (K.standardDecode body.flatten).bind spkiTail
    else none

/-! ## Resolution -/

/-- The verifying keys of the PEM blocks from the index on, each with its raw bytes. -/
def resolveVerifying : Nat → List String → Except String (List (L.DecodingKey × Vector UInt8 32))
  | _, [] => .ok []
  | i, pem :: pems =>
    match K.decodingFromEdPem pem, ed25519SpkiRaw32 K pem with
    | .ok key, some raw => (resolveVerifying (i + 1) pems).map (fun resolved => (key, raw) :: resolved)
    | .error e, _ => .error s!"Ed25519 verifying key #{i + 1} is not a valid PEM key: {e.text}"
    | .ok _, none => .error s!"Ed25519 verifying key #{i + 1} is not a raw Ed25519 SubjectPublicKeyInfo block"

def resolveEd25519 (ed : Ed25519Keys) : Except String (KeySet L × List (Vector UInt8 32)) :=
  (resolveVerifying K 0 ed.verifyingPems).bind fun resolved =>
    match ed.signingPem with
    | none => .ok (.ed25519 none (resolved.map Prod.fst), resolved.map Prod.snd)
    | some pem =>
      match K.encodingFromEdPem pem with
      | .ok key => .ok (.ed25519 (some key) (resolved.map Prod.fst), resolved.map Prod.snd)
      | .error e => .error s!"Ed25519 signing key is not a valid PEM key: {e.text}"

/-- The key set, with the raw public keys an Ed25519 one keeps; `mldsa` is the feature of the build. -/
def KeySet.resolve (mldsa : Bool) (ed : Ed25519Keys) (ml : MlDsa65Keys) (secret : String) :
    KeySet L × List (Vector UInt8 32) :=
  if ed.configured && ml.configured then
    (.broken ("both Ed25519 and ML-DSA-65 key material is configured; a manager pins exactly one profile — remove one " ++
      "of the two key sets"), [])
  else if mldsa && (ml.signingSeed.isSome && ml.verifying.isEmpty) then
    (.broken ("an ML-DSA-65 signing seed is configured but no verifying key is: add the matching public key with " ++
      "`add_mldsa65_verifying_key`"), [])
  else if mldsa && !ml.verifying.isEmpty then
    (.mlDsa65 (ml.signingSeed.map K.mlSigningKeyFromSeed) (ml.verifying.map K.mlVerifyingKeyDecode), [])
  else if !mldsa && ml.configured then
    (.broken ("ML-DSA-65 key material is configured but this build of kirino-session lacks the `mldsa` feature; refusing " ++
      "to fall back to the HS256 shared-secret profile"), [])
  else if ed.signingPem.isSome && ed.verifyingPems.isEmpty then
    (.broken ("an Ed25519 signing key is configured but no verifying key is: add the matching public key with " ++
      "`add_ed25519_verifying_key`"), [])
  else if ed.verifyingPems.isEmpty then (.sharedSecret (K.encodingFromSecret secret) (K.decodingFromSecret secret), [])
  else
    match resolveEd25519 K ed with
    | .ok resolved => resolved
    | .error text => (.broken text, [])

/-- The manager, with the raw public keys it keeps for publication. -/
structure PublishingManager (L : Crates) extends TokenManager L where
  verifyingRaw : List (Vector UInt8 32)

def PublishingManager.new (mldsa : Bool) (config : KeyedConfig) : PublishingManager L :=
  let resolved := KeySet.resolve K mldsa config.ed25519 config.mldsa65 config.secret
  ⟨⟨config.toSessionConfig, resolved.1⟩, resolved.2⟩

/-! ## Publication -/

/-- An entry of the JWK set, its members by name. -/
structure Jwk where
  kty : String
  crv : Option String
  x : Option String
  pub : Option String
  alg : String
  use : String
  kid : Option String
deriving DecidableEq

def okpJwk (L : Crates) (kid : Option String) (raw : Vector UInt8 32) : Jwk :=
  ⟨"OKP", some "Ed25519", some (L.b64uEncode raw.toList), none, "EdDSA", "sig", kid⟩

def akpJwk (L : Crates) (kid : Option String) (encoded : Vector UInt8 1952) : Jwk :=
  ⟨"AKP", none, none, some (L.b64uEncode encoded.toList), mlDsa65Alg, "sig", kid⟩

def PublishingManager.jwks (m : PublishingManager L) : List Jwk :=
  match m.keys with
  | .sharedSecret _ _ => []
  | .broken _ => []
  | .ed25519 _ _ => m.verifyingRaw.map (okpJwk L m.config.kid)
  | .mlDsa65 _ verifying => verifying.map (fun key => akpJwk L m.config.kid (K.mlVerifyingKeyEncode key))

/-! ## What a usable key set comes from -/

/-- The configuration carries asymmetric key material. -/
def KeyedConfig.Asymmetric (config : KeyedConfig) : Prop :=
  config.ed25519.configured = true ∨ config.mldsa65.configured = true

theorem Ed25519Keys.configured_eq_false_iff {ed : Ed25519Keys} :
    ed.configured = false ↔ ed.signingPem = none ∧ ed.verifyingPems = [] := by
  simp [configured]

theorem MlDsa65Keys.configured_eq_false_iff {ml : MlDsa65Keys} :
    ml.configured = false ↔ ml.signingSeed = none ∧ ml.verifying = [] := by
  simp [configured]

/-- The three usable outcomes of a resolution. -/
inductive Resolved (config : KeyedConfig) : KeySet L × List (Vector UInt8 32) → Prop where
  | sharedSecret (hsymmetric : ¬ config.Asymmetric) :
      Resolved config (.sharedSecret (K.encodingFromSecret config.secret) (K.decodingFromSecret config.secret), [])
  | ed25519 (encoding : Option L.EncodingKey) (resolved : List (L.DecodingKey × Vector UInt8 32))
      (hml : config.mldsa65.configured = false) (hpems : config.ed25519.verifyingPems ≠ [])
      (hresolved : resolveVerifying K 0 config.ed25519.verifyingPems = .ok resolved)
      (hencoding : config.ed25519.signingPem.map K.encodingFromEdPem = encoding.map .ok) :
      Resolved config (.ed25519 encoding (resolved.map Prod.fst), resolved.map Prod.snd)
  | mlDsa65 (hed : config.ed25519.configured = false) (hml : config.mldsa65.verifying ≠ []) :
      Resolved config (.mlDsa65 (config.mldsa65.signingSeed.map K.mlSigningKeyFromSeed)
        (config.mldsa65.verifying.map K.mlVerifyingKeyDecode), [])

/-- **Every PEM block gives its decoding key and its raw bytes, in order.** -/
theorem resolveVerifying_ok : ∀ (i : Nat) (pems : List String) (resolved : List (L.DecodingKey × Vector UInt8 32)),
    resolveVerifying K i pems = .ok resolved →
      List.Forall₂ (fun pem r => K.decodingFromEdPem pem = .ok r.1 ∧ ed25519SpkiRaw32 K pem = some r.2) pems resolved
  | _, [], resolved, h => by
    obtain rfl := Except.ok.inj h
    exact .nil
  | i, pem :: pems, resolved, h => by
    rw [resolveVerifying] at h
    split at h
    · rename_i key raw hkey hraw
      obtain ⟨rest, hrest, rfl⟩ := Lib.ok_of_map h
      exact .cons ⟨hkey, hraw⟩ (resolveVerifying_ok (i + 1) pems rest hrest)
    · cases h
    · cases h

theorem resolveEd25519_ok {ed : Ed25519Keys} {out : KeySet L × List (Vector UInt8 32)}
    (h : resolveEd25519 K ed = .ok out) : ∃ encoding resolved, resolveVerifying K 0 ed.verifyingPems = .ok resolved ∧
      ed.signingPem.map K.encodingFromEdPem = encoding.map .ok ∧
        out = (.ed25519 encoding (resolved.map Prod.fst), resolved.map Prod.snd) := by
  obtain ⟨resolved, hresolved, h⟩ := Lib.ok_of_bind h
  cases hsigning : ed.signingPem with
  | none =>
    rw [hsigning] at h
    exact ⟨none, resolved, hresolved, rfl, (Except.ok.inj h).symm⟩
  | some pem =>
    rw [hsigning] at h
    dsimp only at h
    cases hkey : K.encodingFromEdPem pem with
    | error e => rw [hkey] at h; cases h
    | ok key =>
      rw [hkey] at h
      exact ⟨some key, resolved, hresolved, congrArg some hkey, (Except.ok.inj h).symm⟩

/-- **A resolution is broken, or one of the three usable outcomes**: no combination of key material falls back to the
shared secret. -/
theorem resolve_cases (mldsa : Bool) (config : KeyedConfig) :
    (∃ text, (KeySet.resolve K mldsa config.ed25519 config.mldsa65 config.secret).1 = .broken text) ∨
      Resolved K config (KeySet.resolve K mldsa config.ed25519 config.mldsa65 config.secret) := by
  unfold KeySet.resolve
  by_cases hboth : (config.ed25519.configured && config.mldsa65.configured) = true
  · rw [if_pos hboth]
    exact Or.inl ⟨_, rfl⟩
  rw [if_neg hboth]
  by_cases hseed : (mldsa && (config.mldsa65.signingSeed.isSome && config.mldsa65.verifying.isEmpty)) = true
  · rw [if_pos hseed]
    exact Or.inl ⟨_, rfl⟩
  rw [if_neg hseed]
  by_cases hml : (mldsa && !config.mldsa65.verifying.isEmpty) = true
  · rw [if_pos hml]
    have hkeys : config.mldsa65.verifying ≠ [] := by
      intro hnil
      simp [hnil] at hml
    have hed : config.ed25519.configured = false := by
      by_contra hed
      have : config.mldsa65.configured = true := by simp [MlDsa65Keys.configured, hkeys]
      simp [hed, this] at hboth
    exact Or.inr (.mlDsa65 hed hkeys)
  rw [if_neg hml]
  by_cases hfeature : (!mldsa && config.mldsa65.configured) = true
  · rw [if_pos hfeature]
    exact Or.inl ⟨_, rfl⟩
  rw [if_neg hfeature]
  -- from here on there is no ML-DSA-65 key material, with the feature or without
  have hnone : config.mldsa65.configured = false := by
    rw [MlDsa65Keys.configured_eq_false_iff]
    unfold MlDsa65Keys.configured at hfeature
    cases mldsa <;> cases hs : config.mldsa65.signingSeed <;> simp_all
  by_cases hprivate : (config.ed25519.signingPem.isSome && config.ed25519.verifyingPems.isEmpty) = true
  · rw [if_pos hprivate]
    exact Or.inl ⟨_, rfl⟩
  rw [if_neg hprivate]
  by_cases hpems : config.ed25519.verifyingPems.isEmpty = true
  · rw [if_pos hpems]
    refine Or.inr (.sharedSecret ?_)
    rintro (hed | hml)
    · have hsome : config.ed25519.signingPem.isSome = true := by simpa [Ed25519Keys.configured, hpems] using hed
      rw [hsome, hpems] at hprivate
      exact hprivate rfl
    · rw [hnone] at hml
      cases hml
  rw [if_neg hpems]
  cases hed : resolveEd25519 K config.ed25519 with
  | error text => exact Or.inl ⟨text, rfl⟩
  | ok out =>
    obtain ⟨encoding, resolved, hresolved, hencoding, rfl⟩ := resolveEd25519_ok K hed
    refine Or.inr (.ed25519 encoding resolved hnone ?_ hresolved hencoding)
    intro hnil
    rw [hnil] at hpems
    exact hpems rfl

/-- What the libraries document of key material: the keys of a secret are a pair, and the encoding of an ML-DSA-65 key
reads back. -/
structure KeyCrates.Documented (signed : L.DecodingKey → Algorithm → String → Bool) : Prop where
  secret_pair : ∀ secret, SigningPair signed .hs256 (K.encodingFromSecret secret) (K.decodingFromSecret secret)
  ml_encode : ∀ raw, K.mlVerifyingKeyEncode (K.mlVerifyingKeyDecode raw) = raw

end

end Session
end Kirino
