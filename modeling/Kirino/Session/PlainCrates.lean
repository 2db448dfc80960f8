import Mathlib.Data.Nat.Digits.Defs
import Mathlib.Logic.Equiv.List
import Mathlib.Tactic.DeriveEncodable
import Kirino.Session.KeySet
/-!
# PlainCrates — libraries that do as documented

A model of the libraries in which everything is plain: a serialization is a number in base 256, a signature repeats the
verifying key and the text it signs.  It does all that `Crates.Documented` and `KeyCrates.Documented` ask for.
-/
namespace Kirino
namespace Session

instance encodableChar : Encodable Char := Encodable.ofLeftInverse Char.toNat Char.ofNat Char.ofNat_toNat

instance encodableString : Encodable String := Encodable.ofLeftInverse String.toList String.ofList (fun _ => String.ofList_toList)

deriving instance Encodable for TokenType, TokenClaims, JoseHeader

section
variable {α : Type} [Encodable α]

/-- The digits of a value's number. -/
def plainWrite (a : α) : List UInt8 := (Nat.digits 256 (Encodable.encode a)).map UInt8.ofNat

def plainRead (bytes : List UInt8) : Except String α :=
  match Encodable.decode (Nat.ofDigits 256 (bytes.map UInt8.toNat)) with
  | some a => .ok a
  | none => .error "malformed"

theorem plainRead_plainWrite (a : α) : plainRead (plainWrite a) = .ok a := by
  have hdigits : (plainWrite a).map UInt8.toNat = Nat.digits 256 (Encodable.encode a) := by
    unfold plainWrite
    rw [List.map_map]
    conv => rhs; rw [← List.map_id (Nat.digits 256 (Encodable.encode a))]
    refine List.map_congr_left (fun d hd => ?_)
    have hlt : d < 256 := Nat.digits_lt_base (by omega) hd
    exact UInt8.toNat_ofNat_of_lt' hlt
  unfold plainRead
  rw [hdigits, Nat.ofDigits_digits, Encodable.encodek]

end

def textBytes (text : String) : List UInt8 := text.toList.map (fun c => UInt8.ofNat c.toNat)

def plainB64u (bytes : List UInt8) : String := String.ofList (bytes.map byteChar)

def plainB64uDecode (text : String) : List UInt8 := text.toList.map (fun c => UInt8.ofNat (c.toNat - 256))

/-- The signature of the JWT library: the key, the algorithm and the text. -/
def plainSignature (key : String) (alg : Algorithm) (input : String) : List UInt8 :=
  textBytes (key ++ "/" ++ alg.name ++ "/" ++ input)

def plainSigned (key : String) (alg : Algorithm) (token : String) : Bool :=
  match segments token with
  | some (h, p, s) => decide (plainB64uDecode s = plainSignature key alg (h ++ "." ++ p))
  | none => false

def plainEncode (header : Header) (c : TokenClaims) (key : String) : String :=
  let input := plainB64u (plainWrite (⟨some header.alg.name, header.kid⟩ : JoseHeader)) ++ "." ++ plainB64u (plainWrite c)
  input ++ "." ++ plainB64u (plainSignature key header.alg input)

/-- The public half of an ML-DSA-65 seed: the seed, and zeros. -/
@[irreducible] def plainPublic (seed : Vector UInt8 32) : Vector UInt8 1952 := Vector.ofFn (fun i => if h : i < 32 then seed[i] else 0)

def plainSeed : Vector UInt8 32 := Vector.replicate 32 7

def plainMlSign (seed : Vector UInt8 32) (input : String) : List UInt8 := (plainPublic seed).toList ++ textBytes input

def plainMlVerify (key : Vector UInt8 1952) (input : String) (sig : List UInt8) : Bool :=
  decide (sig = key.toList ++ textBytes input)

def plainHeader (token : String) : Option JoseHeader :=
  match segments token with
  | some (h, _, _) => (plainRead (plainB64uDecode h)).toOption
  | none => none

def plainClaims (token : String) : Option TokenClaims :=
  match segments token with
  | some (_, p, _) => (plainRead (plainB64uDecode p)).toOption
  | none => none

/-- The leeway is subtracted from an unsigned clock: before it every token counts as expired. -/
def plainDecode (token key : String) (v : Validation) (now : Nat) : Except JwtError TokenClaims :=
  match plainClaims token with
  | some c =>
    if v.validateExp = true ∧ now < validationLeeway then .error ⟨.expiredSignature, "ExpiredSignature"⟩
    else if plainSigned key v.algorithm token = true ∧ (plainHeader token).bind JoseHeader.alg = some v.algorithm.name ∧
        v.Accepts now c then .ok c
    else .error ⟨.other, "InvalidToken"⟩
  | none => .error ⟨.other, "InvalidToken"⟩

def plainCrates : Crates where
  overflowChecks := true
  unprintable _ := false
  Uuid := String
  uuidToString := id
  uuidParseStr := some
  EncodingKey := String
  DecodingKey := String
  encode header c key := .ok (plainEncode header c key)
  decode := plainDecode
  b64uEncode := plainB64u
  b64uDecode text := .ok (plainB64uDecode text)
  headerFromSlice := plainRead
  headerToVec header := .ok (plainWrite header)
  claimsFromSlice := plainRead
  claimsToVec c := .ok (plainWrite c)
  MlSigningKey := Vector UInt8 32
  MlVerifyingKey := Vector UInt8 1952
  MlSignature := List UInt8
  mlSign := plainMlSign
  mlVerify := plainMlVerify
  mlEncodeSignature := id
  mlDecodeSignature := some

def plainKeys : KeyCrates plainCrates where
  encodingFromSecret := id
  decodingFromSecret := id
  encodingFromEdPem := .ok
  decodingFromEdPem := .ok
  standardDecode _ := none
  mlSigningKeyFromSeed := id
  mlVerifyingKeyDecode := id
  mlVerifyingKeyEncode := id

theorem headerOf_plain (token : String) : headerOf plainCrates token = plainHeader token := by
  unfold headerOf plainHeader
  cases segments token <;> rfl

theorem claimsOf_plain (token : String) : claimsOf plainCrates token = plainClaims token := by
  unfold claimsOf plainClaims
  cases segments token <;> rfl

/-- The segments of an encoded token. -/
theorem segments_plainEncode (header : Header) (c : TokenClaims) (key : String) :
    ∃ h p s, segments (plainEncode header c key) = some (h, p, s) ∧
      plainB64uDecode h = plainWrite (⟨some header.alg.name, header.kid⟩ : JoseHeader) ∧
        plainB64uDecode p = plainWrite c ∧ plainB64uDecode s = plainSignature key header.alg (h ++ "." ++ p) :=
  ⟨_, _, _, TokenManager.segments_join _ _ _ (dot_not_mem_byteChars _) (dot_not_mem_byteChars _) (dot_not_mem_byteChars _),
    bytes_of_byteChars _, bytes_of_byteChars _, bytes_of_byteChars _⟩

theorem plainEncode_pair (alg : Algorithm) (key : String) :
    SigningPair (L := plainCrates) plainSigned alg key key := by
  rintro header c rfl
  obtain ⟨h, p, s, hseg, -, -, hsignature⟩ := segments_plainEncode header c key
  refine ⟨_, rfl, ?_⟩
  unfold plainSigned
  rw [hseg]
  exact decide_eq_true hsignature

theorem plainMlVerify_plainMlSign (seed : Vector UInt8 32) (input : String) :
    plainMlVerify (plainPublic seed) input (plainMlSign seed input) = true := by
  unfold plainMlVerify plainMlSign
  rw [decide_eq_true_iff]

theorem plainMlSign_pair (seed : Vector UInt8 32) : MlSigningPair (L := plainCrates) seed (plainPublic seed) :=
  plainMlVerify_plainMlSign seed

theorem plainDecode_eq_ok_iff {token key : String} {v : Validation} {now : Nat} {c : TokenClaims} :
    plainDecode token key v now = .ok c ↔ ¬ (v.validateExp = true ∧ now < validationLeeway) ∧
      plainSigned key v.algorithm token = true ∧ algOf plainCrates token = some v.algorithm.name ∧
        claimsOf plainCrates token = some c ∧ v.Accepts now c := by
  unfold plainDecode algOf
  rw [headerOf_plain, claimsOf_plain]
  cases plainClaims token with
  | none => simp
  | some c' =>
    dsimp only
    by_cases hearly : v.validateExp = true ∧ now < validationLeeway
    · rw [if_pos hearly]
      exact iff_of_false nofun (fun h => h.1 hearly)
    rw [if_neg hearly]
    split
    · rename_i h
      constructor
      · intro hc
        obtain rfl := Except.ok.inj hc
        exact ⟨hearly, h.1, h.2.1, rfl, h.2.2⟩
      · rintro ⟨-, -, -, hc, -⟩
        exact congrArg Except.ok (Option.some.inj hc)
    · rename_i h
      constructor
      · intro hc
        cases hc
      · rintro ⟨-, hsigned, halg, hc, haccepts⟩
        obtain rfl := Option.some.inj hc
        exact absurd ⟨hsigned, halg, haccepts⟩ h

theorem plainCrates_documented : plainCrates.Documented plainSigned where
  b64u_dot := dot_not_mem_byteChars
  b64u_decode bytes := congrArg Except.ok (bytes_of_byteChars bytes)
  claims_written c := ⟨_, rfl⟩
  claims_read h := by
    obtain rfl := Except.ok.inj h
    exact plainRead_plainWrite _
  header_written header := ⟨_, rfl⟩
  header_read h := by
    obtain rfl := Except.ok.inj h
    exact plainRead_plainWrite _
  signature_read _ := rfl
  decode_ok h := (plainDecode_eq_ok_iff.1 h).2
  decode_of_accepts hclock hsigned halg hclaims haccepts :=
    plainDecode_eq_ok_iff.2 ⟨fun h => absurd (hclock h.1) (Nat.not_le.2 h.2), hsigned, halg, hclaims, haccepts⟩
  encode_ok {header c ek token} h := by
    obtain rfl := Except.ok.inj h
    obtain ⟨hd, p, s, hseg, hheader, hclaims, -⟩ := segments_plainEncode header c ek
    rw [headerOf_plain, claimsOf_plain]
    unfold plainHeader plainClaims
    rw [hseg]
    dsimp only
    rw [hheader, hclaims, plainRead_plainWrite, plainRead_plainWrite]
    exact ⟨rfl, rfl⟩

theorem plainKeys_documented : plainKeys.Documented plainSigned where
  secret_pair secret := plainEncode_pair .hs256 secret
  ml_encode _ := rfl

/-- Claims for the default issuer, valid for the hundred seconds after the instant 1700000000. -/
def audClaims (aud : Option String) : TokenClaims :=
  ⟨"u", "ada", .access, 1700000000, 1700000100, "kirino", "j", none, [], none, none, none, none, [], aud⟩

end Session
end Kirino
