import Kirino.Session.Acceptance
/-!
# Expiry — the expiry test of the ML-DSA-65 path (`session/manager.rs`)

The path reads the claims and tests them before it looks at the signature, so the expiry it adds the leeway to is whatever
the token says.  The expiry is cast to a signed number first: the test is the comparison of numbers as long as the sum fits
(`expiryTest_exact`); above that a build with overflow checks panics (`verifyMldsa65_panicked`), and every other token
there counts as expired.
-/
namespace Kirino
namespace Session
namespace TokenManager

open Lib (asI64 inI64 sumI64)

/-- `now > claims.exp as i64 + VERIFY_LEEWAY_SECS`; `none` is the panic of a build with overflow checks. -/
def expiryTest (overflowChecks : Bool) (now : Int) (exp : UInt64) : Option Bool :=
  (sumI64 overflowChecks (asI64 exp.toNat) verifyLeewaySecs).map (fun limit => decide (now > limit))

/-- The path's check is this test. -/
theorem checkExpiry_eq (overflowChecks : Bool) (now : Nat) {claims : TokenClaims} {exp : UInt64}
    (h : claims.exp = exp.toNat) : checkExpiry overflowChecks now claims =
      match expiryTest overflowChecks now exp with
      | some true => .error (.error (.expired now))
      | some false => .ok ()
      | none => .error .panicked := by
  unfold checkExpiry expiryTest
  rw [h]
  cases sumI64 overflowChecks (asI64 exp.toNat) verifyLeewaySecs with
  | none => rfl
  | some limit =>
    dsimp only [Option.map_some]
    split
    · next hlate => rw [decide_eq_true hlate]
    · next hlate => rw [decide_eq_false hlate]

/-- While the sum fits, the test compares the numbers. -/
theorem expiryTest_of_lt {exp : UInt64} (h : exp.toNat + 60 < 2 ^ 63) (overflowChecks : Bool) (now : Int) :
    expiryTest overflowChecks now exp = some (decide (now > exp.toNat + 60)) := by
  have hcast : asI64 exp.toNat = exp.toNat := Lib.asI64_of_lt (by omega)
  have hrange : inI64 (asI64 exp.toNat + verifyLeewaySecs) = true := by
    unfold verifyLeewaySecs
    rw [hcast]
    exact decide_eq_true (by omega)
  rw [expiryTest, Lib.sumI64_of_inI64 hrange, Option.map_some, hcast]
  rfl

/-- Where the sum does not fit, whatever it is taken for lies before the leeway's end in 1970. -/
theorem limit_le {exp : UInt64} {overflowChecks : Bool} {limit : Int} (h : 2 ^ 63 ≤ exp.toNat + 60)
    (hsum : sumI64 overflowChecks (asI64 exp.toNat) verifyLeewaySecs = some limit) : limit < 60 := by
  have hexp := exp.toNat_lt
  by_cases hlt : exp.toNat < 2 ^ 63
  · have hcast : asI64 exp.toNat = exp.toNat := Lib.asI64_of_lt hlt
    rw [hcast] at hsum
    have hneg := Lib.sumI64_eq_some_neg (by unfold verifyLeewaySecs; omega) (by unfold verifyLeewaySecs; omega) hsum
    omega
  · have hcast : asI64 exp.toNat = (exp.toNat : Int) - 2 ^ 64 := Lib.asI64_of_not_lt hlt
    have hrange : inI64 (asI64 exp.toNat + verifyLeewaySecs) = true := by
      unfold verifyLeewaySecs
      rw [hcast]
      exact decide_eq_true (by omega)
    rw [Lib.sumI64_of_inI64 hrange, hcast] at hsum
    have hlimit := Option.some.inj hsum
    unfold verifyLeewaySecs at hlimit
    omega

/-- So from then on the test does not compare the numbers: no signed time is after such an expiry. -/
theorem expiryTest_ne {exp : UInt64} (h : 2 ^ 63 ≤ exp.toNat + 60) (overflowChecks : Bool) {now : Int} (hnow : 60 ≤ now)
    (hrange : now < 2 ^ 63) : expiryTest overflowChecks now exp ≠ some (decide (now > exp.toNat + 60)) := by
  intro htest
  have hearly : decide (now > (exp.toNat : Int) + 60) = false := decide_eq_false (by omega)
  rw [hearly, expiryTest, Option.map_eq_some_iff] at htest
  obtain ⟨limit, hsum, hlate⟩ := htest
  have hlimit := limit_le h hsum
  exact absurd (of_decide_eq_false hlate) (by omega)

/-- **The expiry test is the comparison of numbers exactly while expiry and leeway fit a signed number**, in a build with
overflow checks and in one without: there for every clock, and beyond it for no clock after the first minute of 1970. -/
theorem expiryTest_exact (overflowChecks : Bool) (exp : UInt64) :
    ((∀ now : Int, inI64 now = true → expiryTest overflowChecks now exp = some (decide (now > exp.toNat + 60))) ↔
      exp.toNat + 60 < 2 ^ 63) ∧
    ∀ now : Int, 60 ≤ now → inI64 now = true →
      (expiryTest overflowChecks now exp = some (decide (now > exp.toNat + 60)) ↔ exp.toNat + 60 < 2 ^ 63) := by
  have hat : ∀ now : Int, 60 ≤ now → inI64 now = true →
      (expiryTest overflowChecks now exp = some (decide (now > exp.toNat + 60)) ↔ exp.toNat + 60 < 2 ^ 63) := by
    intro now hnow hrange
    refine ⟨fun htest => ?_, fun hfits => expiryTest_of_lt hfits overflowChecks now⟩
    by_contra hover
    exact expiryTest_ne (Nat.le_of_not_lt hover) overflowChecks hnow (of_decide_eq_true hrange).2 htest
  refine ⟨⟨fun hall => ?_, fun hfits now _ => expiryTest_of_lt hfits overflowChecks now⟩, hat⟩
  exact (hat 60 (Int.le_refl 60) (by decide)).1 (hall 60 (by decide))

/-- An expiry of 2^63 is before every clock to the test, and one a minute below it has no sum; to the comparison of numbers
neither has passed. -/
theorem expiryTest_not_exact :
    (∀ overflowChecks, expiryTest overflowChecks 1800000000 9223372036854775808 = some true) ∧
      decide ((1800000000 : Int) > (9223372036854775808 : UInt64).toNat + 60) = false ∧
      expiryTest true 1800000000 9223372036854775748 = none ∧ expiryTest false 1800000000 9223372036854775748 = some true ∧
      decide ((1800000000 : Int) > (9223372036854775748 : UInt64).toNat + 60) = false := by
  decide +kernel

section
variable {L : Crates} {m : TokenManager L} {now : Nat} {token : String} {header : JoseHeader} {claims : TokenClaims}

/-- What the expiry test answers is the answer for any signature: no key has been tried yet. -/
theorem verifyMldsa65_of_checkExpiry {fault : Fault} (hheader : headerOf L token = some header)
    (hpassed : m.checkHeader header = .ok ()) (hclaims : claimsOf L token = some claims)
    (hregistered : m.checkRegistered claims = .ok ()) (hexp : checkExpiry L.overflowChecks now claims = .error fault)
    (verifying : List L.MlVerifyingKey) : m.verifyMldsa65 now token verifying true = .error fault := by
  cases hseg : segments token with
  | none =>
    rw [headerOf, hseg] at hheader
    cases hheader
  | some seg =>
    obtain ⟨h, p, s⟩ := seg
    obtain ⟨headerBytes, hheaderBytes, hheader⟩ := (headerOf_eq_some_iff hseg).1 hheader
    obtain ⟨claimBytes, hclaimBytes, hclaims⟩ := (claimsOf_eq_some_iff hseg).1 hclaims
    unfold verifyMldsa65
    rw [hseg]
    dsimp only
    rw [b64uDecode_eq_ok_iff.2 hheaderBytes, b64uDecode_eq_ok_iff.2 hclaimBytes]
    simp only [bind, Except.bind, hheader, Except.mapError, hpassed, hclaims, hregistered, hexp, if_true]

/-- **A token nobody signed panics the verifier** of a build with overflow checks: it names this issuer, and an expiry in the
minute below 2^63. -/
theorem verifyMldsa65_panicked (hchecks : L.overflowChecks = true) (hheader : headerOf L token = some header) (hpassed : m.checkHeader header = .ok ())
    (hclaims : claimsOf L token = some claims) (hregistered : m.checkRegistered claims = .ok ())
    (hlow : claims.exp < 2 ^ 63) (hhigh : 2 ^ 63 ≤ claims.exp + 60) (verifying : List L.MlVerifyingKey) :
    m.verifyMldsa65 now token verifying true = .error .panicked := by
  refine verifyMldsa65_of_checkExpiry hheader hpassed hclaims hregistered ?_ verifying
  have hout : inI64 (asI64 claims.exp + verifyLeewaySecs) = false := by
    unfold verifyLeewaySecs
    rw [Lib.asI64_of_lt hlow]
    exact decide_eq_false (by omega)
  rw [checkExpiry, sumI64, hchecks, if_pos rfl, Lib.addI64, hout]
  rfl

end

end TokenManager
end Session
end Kirino
