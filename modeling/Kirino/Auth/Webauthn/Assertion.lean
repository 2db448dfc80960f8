import Kirino.Auth.Webauthn.ClientData
/-!
# Assertion — a login by assertion (`auth/passport/webauthn/assertion.rs`)

An assertion is checked against what was signed: the ceremony, the relying party, the flags, the credential, the
signature and the counter.  What it accepts the legacy verifier accepts as well, given the counter of the signed data, and
the checks that it adds are all that tells the two apart; the counters that are accepted one after the other advance.
-/
namespace Kirino
namespace Auth
namespace Webauthn

open Lib (debugText ok_of_bind ok_of_mapError Machine)
open Lib.Cbor (beNat)
open Utils (constantTimeEq constantTimeEq_iff)

structure AssertionExpectations where
  rpId : String
  challengeB64 : String
  allowedOrigins : List String
  requireUserVerification : Bool
deriving DecidableEq, Repr

structure AssertionOutcome where
  signCount : Nat
  userVerified : Bool
  backupState : Bool
deriving DecidableEq, Repr

/-- The JSON reader as well. -/
structure AssertionCrates (K S : Type) extends SignatureCrates K S where
  clientDataFromSlice : List UInt8 → Except String ClientData

section Crates
variable {K S : Type} (C : AssertionCrates K S)

/-- The flags of the authenticator data, and the relying party. -/
def checkFlagsAndRp (ad : AuthenticatorData) (expectations : AssertionExpectations) : Except Fault Unit :=
  if ad.userPresent = false then .error (.error "UP flag not set")
  else if expectations.requireUserVerification ∧ ad.userVerified = false then
    .error (.error "UV flag required but not set")
  else if ad.rpIdHash ≠ C.sha256 (utf8 expectations.rpId) then
    .error (.error ("rpIdHash mismatch for RP " ++ debugText C.unprintable expectations.rpId))
  else .ok ()

def checkCredentialId (responseCredentialId storedCredentialId : List UInt8) : Except Fault Unit :=
  if responseCredentialId.isEmpty || storedCredentialId.isEmpty then .error (.error "credential id must not be empty")
  else if !constantTimeEq responseCredentialId storedCredentialId then .error (.error "credential_id mismatch")
  else .ok ()

/-- The counter to store. -/
def newCount (authCount storedSignCount : Nat) : Except Fault Nat :=
  if authCount ≠ 0 ∨ storedSignCount ≠ 0 then
    if authCount ≤ storedSignCount then
      .error (.error ("sign_count not incremented: stored=" ++ toString storedSignCount ++ ", auth=" ++ toString authCount))
    else if maxSignCountGap < authCount - storedSignCount then
      .error (.error ("sign_count gap too large: stored=" ++ toString storedSignCount ++ ", auth=" ++ toString authCount))
    else .ok authCount
  else .ok 0

def verifyAssertion (storedCredentialId storedPublicKeyCose : List UInt8) (storedSignCount : Nat)
    (responseCredentialId : List UInt8) (authenticatorData : ByteSlice) (signature clientDataJson : List UInt8)
    (expectations : AssertionExpectations) : Except Fault AssertionOutcome := do
  let cd ← ClientData.parse C.clientDataFromSlice clientDataJson
  cd.verifyExpectations C.unprintable typeGet expectations.challengeB64 expectations.allowedOrigins
  let ad ← AuthenticatorData.parse authenticatorData
  checkFlagsAndRp C ad expectations
  checkCredentialId responseCredentialId storedCredentialId
  checkSignature C.toSignatureCrates storedPublicKeyCose ad.raw clientDataJson signature
  let signCount ← newCount ad.signCount storedSignCount
  .ok ⟨signCount, ad.userVerified, ad.backupState⟩

/-! ## What is accepted -/

/-- The counter in bytes 33 to 36. -/
def signCountBytes (authenticatorData : List UInt8) : Nat := beNat ((authenticatorData.drop 33).take 4)

/-- What the full verifier checks and the legacy one does not, with what the signed data say. -/
structure CeremonyHolds (expectations : AssertionExpectations) (authenticatorData : ByteSlice) (clientDataJson : List UInt8)
    (ad : AuthenticatorData) : Prop where
  clientData : ∃ cd, C.clientDataFromSlice clientDataJson = .ok cd ∧
    cd.Expected typeGet expectations.challengeB64 expectations.allowedOrigins
  parsed : AuthenticatorData.parse authenticatorData = .ok ad
  present : ad.userPresent = true
  verified : expectations.requireUserVerification = true → ad.userVerified = true
  relyingParty : ad.rpIdHash = C.sha256 (utf8 expectations.rpId)

variable {C}

theorem newCount_iff {authCount stored count : Nat} :
    newCount authCount stored = .ok count ↔ Advances stored authCount ∧ count = authCount := by
  unfold newCount Advances
  by_cases hcounts : authCount ≠ 0 ∨ stored ≠ 0
  · rw [if_pos hcounts]
    by_cases hstill : authCount ≤ stored
    · rw [if_pos hstill]
      exact ⟨nofun, fun h => by omega⟩
    · rw [if_neg hstill]
      by_cases hgap : maxSignCountGap < authCount - stored
      · rw [if_pos hgap]
        exact ⟨nofun, fun h => by omega⟩
      · rw [if_neg hgap]
        exact ⟨fun h => ⟨Or.inr (by omega), (Except.ok.inj h).symm⟩, fun h => congrArg _ h.2.symm⟩
  · rw [if_neg hcounts]
    constructor
    · intro h
      have hzero := Except.ok.inj h
      omega
    · rintro ⟨-, rfl⟩
      exact congrArg _ (by omega)

theorem checkCredentialId_iff {response stored : List UInt8} :
    checkCredentialId response stored = .ok () ↔ response = stored ∧ stored ≠ [] := by
  unfold checkCredentialId
  by_cases hempty : (response.isEmpty || stored.isEmpty) = true
  · rw [if_pos hempty]
    rw [Bool.or_eq_true, List.isEmpty_iff, List.isEmpty_iff] at hempty
    refine ⟨nofun, fun h => absurd ?_ h.2⟩
    rcases hempty with hempty | hempty
    · exact h.1.symm.trans hempty
    · exact hempty
  · rw [if_neg hempty]
    rw [Bool.or_eq_true, List.isEmpty_iff, List.isEmpty_iff, not_or] at hempty
    by_cases hsame : constantTimeEq response stored = true
    · rw [hsame]
      exact ⟨fun _ => ⟨constantTimeEq_iff.1 hsame, hempty.2⟩, fun _ => rfl⟩
    · have hne : response ≠ stored := fun h => hsame (constantTimeEq_iff.2 h)
      rw [Bool.not_eq_true] at hsame
      rw [hsame]
      exact ⟨nofun, fun h => absurd h.1 hne⟩

theorem checkFlagsAndRp_iff {ad : AuthenticatorData} {expectations : AssertionExpectations} :
    checkFlagsAndRp C ad expectations = .ok () ↔ ad.userPresent = true ∧
      (expectations.requireUserVerification = true → ad.userVerified = true) ∧
        ad.rpIdHash = C.sha256 (utf8 expectations.rpId) := by
  unfold checkFlagsAndRp
  by_cases hup : ad.userPresent = false
  · rw [if_pos hup, hup]
    exact ⟨nofun, fun h => nomatch h.1⟩
  · rw [if_neg hup]
    rw [Bool.not_eq_false] at hup
    by_cases huv : expectations.requireUserVerification ∧ ad.userVerified = false
    · rw [if_pos huv]
      exact ⟨nofun, fun h => nomatch (h.2.1 huv.1).symm.trans huv.2⟩
    · rw [if_neg huv]
      rw [not_and, Bool.not_eq_false] at huv
      by_cases hrp : ad.rpIdHash = C.sha256 (utf8 expectations.rpId)
      · rw [if_neg (not_not_intro hrp)]
        exact ⟨fun _ => ⟨hup, huv, hrp⟩, fun _ => rfl⟩
      · rw [if_pos hrp]
        exact ⟨nofun, fun h => absurd h.2.2 hrp⟩

/-- The parsed data keep the bytes, and read the counter out of them. -/
theorem raw_signCount_of_parse {slice : ByteSlice} {ad : AuthenticatorData} (h : AuthenticatorData.parse slice = .ok ad) :
    ad.raw = slice.bytes ∧ ad.signCount = signCountBytes slice.bytes := by
  have hlong : headerLen ≤ slice.bytes.length := by
    by_contra hshort
    unfold AuthenticatorData.parse at h
    dsimp only at h
    rw [if_pos (Nat.lt_of_not_le hshort)] at h
    cases h
  obtain ⟨rpIdHash, flags, b0, b1, b2, b3, tail, hhash, hbytes⟩ := exists_header hlong
  rw [parse_eq hhash hbytes] at h
  obtain ⟨_, _, h⟩ := ok_of_bind h
  obtain ⟨_, _, h⟩ := ok_of_bind h
  obtain ⟨_, _, h⟩ := ok_of_bind h
  obtain rfl := Except.ok.inj h
  refine ⟨rfl, ?_⟩
  have hdrop : slice.bytes.drop 33 = b0 :: b1 :: b2 :: b3 :: tail := by
    have h33 : 33 = rpIdHash.length + 1 := by rw [hhash]
    rw [hbytes, List.append_assoc, h33, ← List.drop_drop, List.drop_left]
    rfl
  unfold signCountBytes
  rw [hdrop]
  rfl

/-- **What the full verifier accepts.** -/
theorem verifyAssertion_iff {storedId key responseId signature clientDataJson : List UInt8} {stored : Nat}
    {authenticatorData : ByteSlice} {expectations : AssertionExpectations} {outcome : AssertionOutcome} :
    verifyAssertion C storedId key stored responseId authenticatorData signature clientDataJson expectations = .ok outcome ↔
      ∃ ad, CeremonyHolds C expectations authenticatorData clientDataJson ad ∧ responseId = storedId ∧ storedId ≠ [] ∧
        checkSignature C.toSignatureCrates key authenticatorData.bytes clientDataJson signature = .ok () ∧
          Advances stored (signCountBytes authenticatorData.bytes) ∧
            outcome = ⟨signCountBytes authenticatorData.bytes, ad.userVerified, ad.backupState⟩ := by
  unfold verifyAssertion
  constructor
  · intro h
    obtain ⟨cd, hcd, h⟩ := ok_of_bind h
    obtain ⟨⟨⟩, hexpected, h⟩ := ok_of_bind h
    obtain ⟨ad, hparse, h⟩ := ok_of_bind h
    obtain ⟨⟨⟩, hflags, h⟩ := ok_of_bind h
    obtain ⟨⟨⟩, hid, h⟩ := ok_of_bind h
    obtain ⟨⟨⟩, hsig, h⟩ := ok_of_bind h
    obtain ⟨count, hcount, h⟩ := ok_of_bind h
    obtain ⟨hraw, hsign⟩ := raw_signCount_of_parse hparse
    obtain ⟨hup, huv, hrp⟩ := checkFlagsAndRp_iff.1 hflags
    obtain ⟨hsame, hne⟩ := checkCredentialId_iff.1 hid
    obtain ⟨hadvance, rfl⟩ := newCount_iff.1 hcount
    rw [hraw] at hsig
    rw [hsign] at hadvance h
    exact ⟨ad, ⟨⟨cd, ok_of_mapError hcd, ClientData.verifyExpectations_iff.1 hexpected⟩, hparse, hup, huv, hrp⟩, hsame,
      hne, hsig, hadvance, (Except.ok.inj h).symm⟩
  · rintro ⟨ad, ⟨⟨cd, hcd, hexpected⟩, hparse, hup, huv, hrp⟩, hsame, hne, hsig, hadvance, rfl⟩
    obtain ⟨hraw, hsign⟩ := raw_signCount_of_parse hparse
    have hparsed : ClientData.parse C.clientDataFromSlice clientDataJson = .ok cd := by
      unfold ClientData.parse
      rw [hcd]
      rfl
    have hcount := newCount_iff.2 ⟨hadvance, rfl⟩
    rw [← hraw] at hsig
    rw [← hsign] at hcount ⊢
    dsimp only [bind, Except.bind]
    rw [hparsed]
    dsimp only
    rw [ClientData.verifyExpectations_iff.2 hexpected]
    dsimp only
    rw [hparse]
    dsimp only
    rw [checkFlagsAndRp_iff.2 ⟨hup, huv, hrp⟩]
    dsimp only
    rw [checkCredentialId_iff.2 ⟨hsame, hne⟩]
    dsimp only
    rw [hsig]
    dsimp only
    rw [hcount]

end Crates

/-! ## Runs in which each accepted counter is stored -/

/-- A call, with all that it is given but the stored counter. -/
structure AssertionCall where
  storedCredentialId : List UInt8
  storedPublicKeyCose : List UInt8
  responseCredentialId : List UInt8
  authenticatorData : ByteSlice
  signature : List UInt8
  clientDataJson : List UInt8
  expectations : AssertionExpectations

section Runs
variable {K S : Type} (C : AssertionCrates K S)

def AssertionCall.verify (call : AssertionCall) (storedSignCount : Nat) : Except Fault AssertionOutcome :=
  verifyAssertion C call.storedCredentialId call.storedPublicKeyCose storedSignCount call.responseCredentialId
    call.authenticatorData call.signature call.clientDataJson call.expectations

/-- The state is the stored counter, and the answer the counter that was accepted. -/
def assertionMachine : Machine Nat AssertionCall (Option Nat) where
  step stored call :=
    match call.verify C stored with
    | .ok outcome => outcome.signCount
    | .error _ => stored
  out stored call :=
    match call.verify C stored with
    | .ok outcome => some outcome.signCount
    | .error _ => none

/-- The counters that a run accepts. -/
def acceptedCounts (stored : Nat) (calls : List AssertionCall) : List Nat :=
  ((assertionMachine C).outs stored calls).filterMap id

/-- Zeros, from a stored zero, and then counters that rise by no more than the gap. -/
def CountsAdvance (stored : Nat) (counts : List Nat) : Prop :=
  ∃ zeros rising, counts = List.replicate zeros 0 ++ rising ∧ (zeros ≠ 0 → stored = 0) ∧
    (stored :: rising).IsChain (fun a b => a < b ∧ b ≤ a + maxSignCountGap)

/-- The full verifier against the legacy one, and the counters of its runs. -/
structure AssertionsRefine : Prop where
  legacy : ∀ storedId key stored responseId (authenticatorData : ByteSlice) signature clientDataJson expectations outcome,
    verifyAssertion C storedId key stored responseId authenticatorData signature clientDataJson expectations = .ok outcome →
      (WebAuthnVerifier.mk storedId key stored).verify C.toSignatureCrates responseId authenticatorData.bytes clientDataJson
        signature (signCountBytes authenticatorData.bytes) = .ok outcome.signCount
  full : ∀ storedId key stored responseId (authenticatorData : ByteSlice) signature clientDataJson expectations ad count,
    (WebAuthnVerifier.mk storedId key stored).verify C.toSignatureCrates responseId authenticatorData.bytes clientDataJson
        signature (signCountBytes authenticatorData.bytes) = .ok count →
      CeremonyHolds C expectations authenticatorData clientDataJson ad → responseId ≠ [] → storedId ≠ [] →
        verifyAssertion C storedId key stored responseId authenticatorData signature clientDataJson expectations =
          .ok ⟨count, ad.userVerified, ad.backupState⟩
  counts : ∀ (stored : Nat) (calls : List AssertionCall), CountsAdvance stored (acceptedCounts C stored calls)
  once : ∀ stored (calls : List AssertionCall) (i j : Nat) call call' n m, i < j → calls[i]? = some call → calls[j]? = some call' →
    ((assertionMachine C).outs stored calls)[i]? = some (some n) →
      ((assertionMachine C).outs stored calls)[j]? = some (some m) → n ≠ 0 →
        n < m ∧ call.authenticatorData ≠ call'.authenticatorData

variable {C}

/-- What an accepted call makes of the stored counter. -/
theorem accepted_spec {stored n : Nat} {call : AssertionCall} (h : (assertionMachine C).out stored call = some n) :
    (assertionMachine C).step stored call = n ∧ Advances stored n ∧ n = signCountBytes call.authenticatorData.bytes := by
  unfold assertionMachine at h ⊢
  dsimp only at h ⊢
  cases hverify : call.verify C stored with
  | error e =>
    rw [hverify] at h
    cases h
  | ok outcome =>
    rw [hverify] at h
    obtain rfl := Option.some.inj h
    obtain ⟨ad, -, -, -, -, hadvance, rfl⟩ := verifyAssertion_iff.1 hverify
    exact ⟨rfl, hadvance, rfl⟩

theorem step_of_refused {stored : Nat} {call : AssertionCall} (h : (assertionMachine C).out stored call = none) :
    (assertionMachine C).step stored call = stored := by
  unfold assertionMachine at h ⊢
  dsimp only at h ⊢
  cases hverify : call.verify C stored with
  | error e => rfl
  | ok outcome =>
    rw [hverify] at h
    cases h

theorem le_of_advances {stored n : Nat} (h : Advances stored n) : stored ≤ n := by
  rcases h with ⟨rfl, rfl⟩ | ⟨h, -⟩
  · exact Nat.le_refl 0
  · exact Nat.le_of_lt h

theorem le_step (stored : Nat) (call : AssertionCall) : stored ≤ (assertionMachine C).step stored call := by
  cases hout : (assertionMachine C).out stored call with
  | none => rw [step_of_refused hout]
  | some n =>
    obtain ⟨hstep, hadvance, -⟩ := accepted_spec hout
    rw [hstep]
    exact le_of_advances hadvance

theorem countsAdvance_nil (stored : Nat) : CountsAdvance stored [] :=
  ⟨0, [], rfl, fun h => absurd rfl h, List.IsChain.singleton stored⟩

/-- One counter more in front: a zero from a stored zero, or a step of at most the gap. -/
theorem CountsAdvance.cons {stored n : Nat} {counts : List Nat} (hadvance : Advances stored n) (h : CountsAdvance n counts) :
    CountsAdvance stored (n :: counts) := by
  obtain ⟨zeros, rising, rfl, hzeros, hchain⟩ := h
  rcases hadvance with ⟨rfl, rfl⟩ | ⟨hlt, hle⟩
  · exact ⟨zeros + 1, rising, rfl, fun _ => rfl, hchain⟩
  · -- a counter above zero leaves no zeros behind it
    have hnone : zeros = 0 := by
      by_contra hne
      have := hzeros hne
      omega
    subst hnone
    refine ⟨0, n :: rising, rfl, fun h => absurd rfl h, List.isChain_cons_cons.2 ⟨⟨hlt, hle⟩, hchain⟩⟩

theorem countsAdvance_run : ∀ (calls : List AssertionCall) (stored : Nat), CountsAdvance stored (acceptedCounts C stored calls)
  | [], stored => countsAdvance_nil stored
  | call :: calls, stored => by
    have ih := countsAdvance_run calls ((assertionMachine C).step stored call)
    have hcons : acceptedCounts C stored (call :: calls) =
        ((assertionMachine C).out stored call).toList ++ acceptedCounts C ((assertionMachine C).step stored call) calls := by
      unfold acceptedCounts
      rw [Machine.outs, List.filterMap_cons]
      cases (assertionMachine C).out stored call <;> rfl
    rw [hcons]
    cases hout : (assertionMachine C).out stored call with
    | none =>
      rw [step_of_refused hout] at ih ⊢
      exact ih
    | some n =>
      obtain ⟨hstep, hadvance, -⟩ := accepted_spec hout
      rw [hstep] at ih ⊢
      exact ih.cons hadvance

/-- **The full verifier refines the legacy one**, and no counter above zero is accepted twice. -/
theorem assertionsRefine (C : AssertionCrates K S) : AssertionsRefine C where
  legacy storedId key stored responseId authenticatorData signature clientDataJson expectations outcome h := by
    obtain ⟨ad, -, hsame, -, hsig, hadvance, rfl⟩ := verifyAssertion_iff.1 h
    exact WebAuthnVerifier.verify_iff.2 ⟨hsame, hadvance, hsig, rfl⟩
  full storedId key stored responseId authenticatorData signature clientDataJson expectations ad count h hholds _ hne := by
    obtain ⟨hsame, hadvance, hsig, rfl⟩ := WebAuthnVerifier.verify_iff.1 h
    exact verifyAssertion_iff.2 ⟨ad, hholds, hsame, hne, hsig, hadvance, rfl⟩
  counts stored calls := countsAdvance_run calls stored
  once stored calls i j call call' n m hij hi hj hn hm hne := by
    rw [Machine.outs_getElem?, hi] at hn
    rw [Machine.outs_getElem?, hj] at hm
    obtain ⟨hstep, -, hbytes⟩ := accepted_spec (Option.some.inj hn)
    obtain ⟨-, hadvance, hbytes'⟩ := accepted_spec (Option.some.inj hm)
    have hafter : n ≤ (assertionMachine C).run stored (calls.take (i + 1)) := by
      rw [Machine.run_take_succ _ _ hi, hstep]
    have hbefore := Machine.run_invariant_between (assertionMachine C) (fun s => n ≤ s) stored calls hij hafter
      (fun q e _ _ _ hle => Nat.le_trans hle (le_step _ _))
    have hlt : n < m := by
      rcases hadvance with ⟨-, hzero⟩ | ⟨hlt, -⟩
      · omega
      · omega
    refine ⟨hlt, fun hdata => ?_⟩
    rw [hbytes, hbytes', hdata] at hlt
    exact Nat.lt_irrefl _ hlt

end Runs

/-! ## An assertion of a test -/

def testAuthData : ByteSlice := ⟨List.replicate 32 1 ++ [0x05, 0, 0, 0, 7], by decide⟩

/-- Libraries for a test, in which one signature is valid. -/
def assertionTestCrates : AssertionCrates (List UInt8) (List UInt8) where
  toWebauthnCrates := { exampleCrates with sha256 := fun _ => List.replicate 32 1 }
  signatureFromDer bytes := .ok bytes
  verify _ _ sig := if sig = [0x30] then .ok () else .error "signature error"
  clientDataFromSlice _ := .ok ⟨typeGet, "Zm9v", "https://RP.example", false⟩

def testAssertion (stored : Nat) : Except Fault AssertionOutcome :=
  verifyAssertion assertionTestCrates [7] ec2Key stored [7] testAuthData [0x30] []
    ⟨"rp.example", "Zm9v", ["https://rp.example"], true⟩

example : testAssertion 6 = .ok ⟨7, true, false⟩ := by decide +kernel

example : testAssertion 7 = .error (.error "sign_count not incremented: stored=7, auth=7") := by decide +kernel

end Webauthn
end Auth
end Kirino
