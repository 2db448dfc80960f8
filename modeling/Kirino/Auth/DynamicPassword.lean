import Kirino.Lib.CasLoop
import Kirino.Utils.ConstantTime
import Mathlib.Algebra.Group.Nat.Defs
/-!
# DynamicPassword — one-time codes from a counter (`auth/passport/dynamic_password.rs`)

A code is cut out of the digest of the counter and written with a fixed number of digits.  The verifier holds the counter:
a call loads it, compares the code, and moves the counter on by a compare-and-swap that it tries three times.  The digest is
a parameter.
-/
namespace Kirino
namespace Auth

open Lib (Attempt CasCall CasEvent CasLoop requests)

/-- HMAC with SHA-1: a key may be refused. -/
structure HmacSha1 where
  Mac : Type
  newFromSlice : List UInt8 → Except String Mac
  finalize : Mac → List UInt8 → Vector UInt8 20

inductive HotpFault where
  | error (text : String)
  | panicked
deriving DecidableEq, Repr

def maxDigits : Nat := 9

/-- The power, `none` where it overflows. -/
def powU32 (base exponent : Nat) : Option UInt32 :=
  if base ^ exponent < 2 ^ 32 then some (UInt32.ofNat (base ^ exponent)) else none

def toBeBytes (counter : UInt64) : List UInt8 :=
  [56, 48, 40, 32, 24, 16, 8, 0].map (fun shift : UInt64 => (counter >>> shift).toUInt8)

/-- The four bytes of the digest that its last one points at, without their first bit; `none` is an index out of range. -/
def truncate (digest : Vector UInt8 20) : Option UInt32 := do
  let last ← digest.toList[19]?
  let offset := (last &&& 0x0f).toNat
  let b₀ ← digest.toList[offset]?
  let b₁ ← digest.toList[offset + 1]?
  let b₂ ← digest.toList[offset + 2]?
  let b₃ ← digest.toList[offset + 3]?
  return ((b₀.toUInt32 &&& 0x7f) <<< 24) ||| ((b₁.toUInt32 &&& 0xff) <<< 16) ||| ((b₂.toUInt32 &&& 0xff) <<< 8) |||
    (b₃.toUInt32 &&& 0xff)

/-- The code of a digest; `none` is a panic. -/
def digestCode (digest : Vector UInt8 20) (digits : Nat) : Option UInt32 := do
  let binary ← truncate digest
  let modulus ← powU32 10 (max 1 (min digits maxDigits))
  return binary % modulus

def hotpCode (hmac : HmacSha1) (secret : List UInt8) (counter : UInt64) (digits : Nat) : Except HotpFault UInt32 :=
  match hmac.newFromSlice secret with
  | .error e => .error (.error ("HMAC init failed: " ++ e))
  | .ok mac =>
    match digestCode (hmac.finalize mac (toBeBytes counter)) digits with
    | some code => .ok code
    | none => .error .panicked

/-- The number with zeros before it, up to the width. -/
def formatCode (code : UInt32) (digits : Nat) : String :=
  String.ofList (List.replicate (digits - (Nat.toDigits 10 code.toNat).length) '0' ++ Nat.toDigits 10 code.toNat)

/-! ## The form of a code -/

/-- **The truncation stays in the digest**: its four bytes begin at the sixteenth at the latest. -/
theorem truncate_isSome (digest : Vector UInt8 20) : (truncate digest).isSome = true := by
  have hlength : digest.toList.length = 20 := by simp
  have hread : ∀ k < 20, ∃ b, digest.toList[k]? = some b :=
    fun k hk => ⟨_, List.getElem?_eq_getElem (by omega)⟩
  obtain ⟨last, hlast⟩ := hread 19 (by omega)
  have hoffset : (last &&& 0x0f).toNat ≤ 15 := by
    rw [UInt8.toNat_and]
    exact Nat.and_le_right
  obtain ⟨b₀, hb₀⟩ := hread (last &&& 0x0f).toNat (by omega)
  obtain ⟨b₁, hb₁⟩ := hread ((last &&& 0x0f).toNat + 1) (by omega)
  obtain ⟨b₂, hb₂⟩ := hread ((last &&& 0x0f).toNat + 2) (by omega)
  obtain ⟨b₃, hb₃⟩ := hread ((last &&& 0x0f).toNat + 3) (by omega)
  unfold truncate
  simp only [hlast, hb₀, hb₁, hb₂, hb₃, Option.bind_eq_bind, Option.bind_some]
  rfl

theorem powU32_ten {digits : Nat} (h : digits ≤ maxDigits) : powU32 10 digits = some (UInt32.ofNat (10 ^ digits)) := by
  have hle : 10 ^ digits ≤ 10 ^ 9 := Nat.pow_le_pow_right (by omega) h
  exact if_pos (by omega)

/-- The code of a digest is below the power of ten of its digits. -/
theorem digestCode_eq (digest : Vector UInt8 20) {digits : Nat} (hpos : 1 ≤ digits) (hle : digits ≤ maxDigits) :
    ∃ code, digestCode digest digits = some code ∧ code.toNat < 10 ^ digits := by
  obtain ⟨binary, hbinary⟩ := Option.isSome_iff_exists.1 (truncate_isSome digest)
  have hclamp : max 1 (min digits maxDigits) = digits := by omega
  have hpow : 10 ^ digits ≤ 10 ^ 9 := Nat.pow_le_pow_right (by omega) hle
  have hmodulus : (UInt32.ofNat (10 ^ digits)).toNat = 10 ^ digits := by
    rw [UInt32.toNat_ofNat']
    exact Nat.mod_eq_of_lt (by omega)
  refine ⟨binary % UInt32.ofNat (10 ^ digits), ?_, ?_⟩
  · unfold digestCode
    rw [hbinary, hclamp, powU32_ten hle]
    rfl
  · rw [UInt32.toNat_mod, hmodulus]
    exact Nat.mod_lt _ (Nat.pow_pos (by omega))

/-- The text is this many decimal digits. -/
def IsDecimal (text : String) (digits : Nat) : Prop := text.toList.length = digits ∧ ∀ c ∈ text.toList, c.isDigit = true

theorem formatCode_isDecimal {code : UInt32} {digits : Nat} (hpos : 1 ≤ digits) (h : code.toNat < 10 ^ digits) :
    IsDecimal (formatCode code digits) digits := by
  have hlength : (Nat.toDigits 10 code.toNat).length ≤ digits := (Nat.length_toDigits_le_iff (by omega) hpos).2 h
  unfold IsDecimal formatCode
  rw [String.toList_ofList]
  refine ⟨?_, fun c hc => ?_⟩
  · rw [List.length_append, List.length_replicate]
    omega
  · rcases List.mem_append.1 hc with hzero | hdigit
    · rw [List.eq_of_mem_replicate hzero]
      rfl
    · exact Nat.isDigit_of_mem_toDigits (by omega) (by omega) hdigit

/-- **Every digest has a code of exactly the digits configured.** -/
theorem exists_digestCode (digest : Vector UInt8 20) {digits : Nat} (hpos : 1 ≤ digits) (hle : digits ≤ maxDigits) :
    ∃ code, digestCode digest digits = some code ∧ IsDecimal (formatCode code digits) digits := by
  obtain ⟨code, hcode, hlt⟩ := digestCode_eq digest hpos hle
  exact ⟨code, hcode, formatCode_isDecimal hpos hlt⟩

/-! ## The counter -/

def maxVerifyRetries : Nat := 3

/-- What a call of `verify` does with the counter that it loaded; the sum panics in a build with overflow checks. -/
def verifyAttempt (hmac : HmacSha1) (overflowChecks : Bool) (secret : List UInt8) (code : String) (current : UInt64) :
    Attempt UInt64 (Except HotpFault Bool) :=
  match hotpCode hmac secret current 6 with
  | .error e => .stop (.error e)
  | .ok expected =>
    if Utils.constantTimeEq (formatCode expected 6).toUTF8.data.toList code.toUTF8.data.toList then
      if overflowChecks = true ∧ current.toNat + 1 = 2 ^ 64 then .stop (.error .panicked) else .swap (current + 1)
    else .stop (.ok false)

section
variable {hmac : HmacSha1} {overflowChecks : Bool} {secret : List UInt8}

/-- The code is that of the counter. -/
def IsCodeOf (hmac : HmacSha1) (secret : List UInt8) (counter : UInt64) (code : String) : Prop :=
  ∃ expected, hotpCode hmac secret counter 6 = .ok expected ∧ formatCode expected 6 = code

theorem verifyAttempt_swap {code : String} {current new : UInt64}
    (h : verifyAttempt hmac overflowChecks secret code current = .swap new) :
    IsCodeOf hmac secret current code ∧ new = current + 1 := by
  unfold verifyAttempt at h
  split at h
  · cases h
  · next expected hexpected =>
    split at h
    · next heq =>
      rw [Utils.constantTimeEq_toUTF8, decide_eq_true_iff] at heq
      split at h
      · cases h
      · cases h
        exact ⟨⟨expected, hexpected, heq⟩, rfl⟩
    · cases h

theorem verifyAttempt_stop {code : String} {current : UInt64} {result : Except HotpFault Bool}
    (h : verifyAttempt hmac overflowChecks secret code current = .stop result) : result ≠ .ok true := by
  unfold verifyAttempt at h
  split at h
  · cases h
    simp
  · split at h
    · split at h
      · cases h
        simp
      · cases h
    · cases h
      simp

/-- `verify`, one atomic access of the counter after the other. -/
def verifyLoop (hmac : HmacSha1) (overflowChecks : Bool) (secret : List UInt8) :
    CasLoop String UInt64 (Except HotpFault Bool) where
  attempt := verifyAttempt hmac overflowChecks secret
  won := .ok true
  lost := .ok false
  maxTries := maxVerifyRetries
  maxTries_pos := by decide
  lost_ne := by simp
  stop_ne _ _ _ h := verifyAttempt_stop h

variable {c₀ : UInt64} {es : List (CasEvent String)}

/-- **The counter has moved by the successes**, in every run that does not take it over its width. -/
theorem counter_eq (hbound : c₀.toNat + (verifyLoop hmac overflowChecks secret).winsBefore c₀ es es.length < 2 ^ 64)
    (n : Nat) : ((verifyLoop hmac overflowChecks secret).valueAt c₀ es n).toNat =
      c₀.toNat + (verifyLoop hmac overflowChecks secret).winsBefore c₀ es n := by
  have hle := CasLoop.winsBefore_le (verifyLoop hmac overflowChecks secret) c₀ es n
  have hstep : ∀ k (v : UInt64) (request : String) (new : UInt64), (c₀.toNat + k < 2 ^ 64 → v.toNat = c₀.toNat + k) →
      (verifyLoop hmac overflowChecks secret).attempt request v = .swap new →
        c₀.toNat + (k + 1) < 2 ^ 64 → new.toNat = c₀.toNat + (k + 1) := by
    intro k v request new hvalue hattempt hfits
    obtain ⟨-, rfl⟩ := verifyAttempt_swap hattempt
    have hv := hvalue (by omega)
    have hone : (1 : UInt64).toNat = 1 := rfl
    rw [UInt64.toNat_add, hone, hv]
    omega
  have hvalue : c₀.toNat + (verifyLoop hmac overflowChecks secret).winsBefore c₀ es n < 2 ^ 64 →
      ((verifyLoop hmac overflowChecks secret).valueAt c₀ es n).toNat =
        c₀.toNat + (verifyLoop hmac overflowChecks secret).winsBefore c₀ es n :=
    CasLoop.value_at (fun k (v : UInt64) => c₀.toNat + k < 2 ^ 64 → v.toNat = c₀.toNat + k) (fun _ => rfl) hstep n
  exact hvalue (by omega)

/-- **A counter is consumed once.**  In every run of calls to `verify`, taken apart into their accesses of the counter, the
counter has moved by the successes so far; a success presented the code of the very counter it consumed, which no other
success consumes; and a call swaps three times at most and has ended after six steps.  The code of any digest can be
taken and has the digits configured. -/
theorem hotp_consumed_once (hmac : HmacSha1) (overflowChecks : Bool) (secret : List UInt8) (c₀ : UInt64)
    (es : List (CasEvent String))
    (hbound : c₀.toNat + (verifyLoop hmac overflowChecks secret).winsBefore c₀ es es.length < 2 ^ 64) :
    (∀ n, ((verifyLoop hmac overflowChecks secret).valueAt c₀ es n).toNat =
      c₀.toNat + (verifyLoop hmac overflowChecks secret).winsBefore c₀ es n) ∧
    (∀ j, (verifyLoop hmac overflowChecks secret).wins c₀ es j = true →
      ∃ i code, es[j]? = some (.step i) ∧ (requests es)[i]? = some code ∧
        IsCodeOf hmac secret ((verifyLoop hmac overflowChecks secret).valueAt c₀ es j) code) ∧
    (∀ j j', (verifyLoop hmac overflowChecks secret).wins c₀ es j = true →
      (verifyLoop hmac overflowChecks secret).wins c₀ es j' = true →
        (verifyLoop hmac overflowChecks secret).valueAt c₀ es j = (verifyLoop hmac overflowChecks secret).valueAt c₀ es j' →
          j = j') ∧
    (∀ i n, (verifyLoop hmac overflowChecks secret).exchangesBefore c₀ es i n ≤ 3) ∧
    (∀ i n call, ((verifyLoop hmac overflowChecks secret).poolAt c₀ es n).threads[i]? = some call →
      6 ≤ (verifyLoop hmac overflowChecks secret).stepsBefore c₀ es i n → ∃ result, call = .done result) ∧
    ∀ (digest : Vector UInt8 20) (digits : Nat), 1 ≤ digits → digits ≤ 9 →
      ∃ code, digestCode digest digits = some code ∧ IsDecimal (formatCode code digits) digits := by
  have hcounter := counter_eq hbound
  -- a success is counted before a later one consumes anything
  have hlater : ∀ j j', (verifyLoop hmac overflowChecks secret).wins c₀ es j = true → j < j' →
      (verifyLoop hmac overflowChecks secret).valueAt c₀ es j ≠ (verifyLoop hmac overflowChecks secret).valueAt c₀ es j' := by
    intro j j' hwins hlt heq
    have hnext : j + 1 ≤ j' := hlt
    have hmono := CasLoop.winsBefore_mono (verifyLoop hmac overflowChecks secret) c₀ es hnext
    have hsucc := CasLoop.winsBefore_succ (verifyLoop hmac overflowChecks secret) c₀ es j
    rw [hwins, if_pos rfl] at hsucc
    have hj := hcounter j
    have hj' := hcounter j'
    rw [heq, hj'] at hj
    omega
  refine ⟨hcounter, fun j hwins => ?_, fun j j' hwins hwins' heq => ?_, fun i n => ?_, fun i n call hcall hsteps => ?_,
    fun digest digits hpos hle => exists_digestCode digest hpos hle⟩
  · obtain ⟨i, code, new, he, hcode, hattempt, -⟩ := CasLoop.wins_spec hwins
    exact ⟨i, code, he, hcode, (verifyAttempt_swap hattempt).1⟩
  · rcases Nat.lt_trichotomy j j' with hlt | rfl | hlt
    · exact absurd heq (hlater j j' hwins hlt)
    · rfl
    · exact absurd heq.symm (hlater j' j hwins' hlt)
  · exact CasLoop.exchangesBefore_le (verifyLoop hmac overflowChecks secret) c₀ es i n
  · exact CasLoop.done_of_steps hcall hsteps

end

/-! ## Two callers with one code -/

def digestZero : Vector UInt8 20 :=
  #v[204, 147, 207, 24, 80, 141, 148, 147, 76, 100, 182, 93, 139, 167, 102, 127, 183, 205, 228, 176]

def digestOne : Vector UInt8 20 :=
  #v[117, 164, 138, 25, 212, 203, 225, 0, 100, 78, 138, 193, 57, 126, 234, 116, 122, 45, 51, 171]

/-- The digests of the first two counters under the secret of the standard's own vectors. -/
def vectorHmac : HmacSha1 where
  Mac := Unit
  newFromSlice _ := .ok ()
  finalize _ message := if message = toBeBytes 0 then digestZero else digestOne

def vectorSecret : List UInt8 := [49, 50, 51, 52, 53, 54, 55, 56, 57, 48, 49, 50, 51, 52, 53, 54, 55, 56, 57, 48]

/-- Both callers load the first counter, and the one that swaps second loads again. -/
def racingRun : List (CasEvent String) :=
  [.call "755224", .call "755224", .step 0, .step 1, .step 1, .step 0, .step 0]

theorem racingRun_consumed : (verifyLoop vectorHmac true vectorSecret).winsBefore 0 racingRun 7 = 1 ∧
    ((verifyLoop vectorHmac true vectorSecret).valueAt 0 racingRun 7).toNat = 1 := by
  have hwins : (verifyLoop vectorHmac true vectorSecret).winsBefore 0 racingRun 7 = 1 := by decide +kernel
  have hbound : (0 : UInt64).toNat + (verifyLoop vectorHmac true vectorSecret).winsBefore 0 racingRun racingRun.length <
      2 ^ 64 := by
    change 0 + (verifyLoop vectorHmac true vectorSecret).winsBefore 0 racingRun 7 < 2 ^ 64
    rw [hwins]
    decide
  have hcounter := (hotp_consumed_once vectorHmac true vectorSecret 0 racingRun hbound).1 7
  rw [hwins] at hcounter
  exact ⟨hwins, hcounter⟩

end Auth
end Kirino
