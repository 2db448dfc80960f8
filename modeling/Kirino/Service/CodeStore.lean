import Kirino.Auth.Captcha
import Kirino.Lib.HashMap
import Kirino.Lib.OneTime
import Kirino.Utils.ConstantTime
/-!
# CodeStore — verification codes (`service/verify/verification/code_store.rs`)

A code is stored under a key with a time and a number of attempts, and a call that presents a code counts an attempt
before it compares.  The counter has 32 bits: with a limit of `u32::MAX` it never passes the limit, and a build without
overflow checks counts round to zero and goes on comparing (`NoWrap`).
-/
namespace Kirino
namespace Service

open Lib (HashMap Machine LastPut)
open Utils (constantTimeEq constantTimeEq_toUTF8)

structure PendingCode where
  code : String
  expiresAt : Nat
  attempts : UInt32
  maxAttempts : UInt32
deriving DecidableEq, Repr

abbrev Codes := HashMap String PendingCode

inductive CodeOp where
  | store (key code : String) (ttl : Nat)
  | storeWithAttempts (key code : String) (ttl : Nat) (maxAttempts : UInt32)
  | verify (key code : String)
deriving DecidableEq, Repr

def CodeOp.key : CodeOp → String
  | store key _ _ => key
  | storeWithAttempts key _ _ _ => key
  | verify key _ => key

/-- A call, and the instant it reads under the lock. -/
structure CodeEvent where
  now : Nat
  op : CodeOp

inductive CodeAnswer where
  | stored
  | verified (result : Bool)
  | panicked
deriving DecidableEq, Repr

/-- A code as it is stored: until when, and for how many comparisons. -/
structure StoredCode where
  code : String
  expiresAt : Nat
  limit : Nat
deriving DecidableEq, Repr

def PendingCode.stored (pending : PendingCode) : StoredCode := ⟨pending.code, pending.expiresAt, pending.maxAttempts.toNat⟩

namespace VerificationCodeStore

def storeWithAttempts (codes : Codes) (now : Nat) (key code : String) (ttl : Nat) (maxAttempts : UInt32) : Codes :=
  (codes.retain (fun _ v => decide (now < v.expiresAt))).insert key ⟨code, now + ttl, 0, max maxAttempts 1⟩

def store (codes : Codes) (now : Nat) (key code : String) (ttl : Nat) : Codes :=
  storeWithAttempts codes now key code ttl 3

section Verify
variable (overflowChecks : Bool)

/-- The largest `u32`. -/
def maxU32 : UInt32 := 4294967295

def verify (codes : Codes) (now : Nat) (key code : String) : Codes × CodeAnswer :=
  match codes.get? key with
  | some pending =>
    if pending.expiresAt ≤ now then (codes.remove key, .verified false)
    else if overflowChecks = true ∧ pending.attempts = maxU32 then (codes, .panicked)
    else
      let pending := { pending with attempts := pending.attempts + 1 }
      if pending.maxAttempts < pending.attempts then (codes.remove key, .verified false)
      else
        let result := constantTimeEq pending.code.toUTF8.data.toList code.toUTF8.data.toList
        (if result then codes.remove key else codes.insert key pending, .verified result)
  | none => (codes, .verified false)

def call (codes : Codes) (event : CodeEvent) : Codes × CodeAnswer :=
  match event.op with
  | .store key code ttl => (store codes event.now key code ttl, .stored)
  | .storeWithAttempts key code ttl maxAttempts =>
    (storeWithAttempts codes event.now key code ttl maxAttempts, .stored)
  | .verify key code => verify overflowChecks codes event.now key code

def machine : Machine Codes CodeEvent CodeAnswer where
  step codes event := (call overflowChecks codes event).1
  out codes event := (call overflowChecks codes event).2

/-- The call reaches its comparison. -/
def reaches (codes : Codes) (now : Nat) (key : String) : Bool :=
  match codes.get? key with
  | some pending =>
    decide (now < pending.expiresAt) && !(overflowChecks && decide (pending.attempts = maxU32)) &&
      decide (pending.attempts + 1 ≤ pending.maxAttempts)
  | none => false

/-- A code that has no comparison with this call: it stays as it is, or goes. -/
structure Unread (codes : Codes) (now : Nat) (key code : String) : Prop where
  reaches : reaches overflowChecks codes now key = false
  answer : (verify overflowChecks codes now key code).2 ≠ .verified true
  after : (verify overflowChecks codes now key code).1 = codes ∨
    (verify overflowChecks codes now key code).1 = codes.remove key

/-- A code that is compared: it is not expired, and its attempts are not used up. -/
structure Read (codes : Codes) (now : Nat) (key code : String) (pending : PendingCode) : Prop where
  found : codes.get? key = some pending
  live : now < pending.expiresAt
  left : pending.attempts + 1 ≤ pending.maxAttempts
  checked : overflowChecks = true → pending.attempts ≠ maxU32
  reaches : reaches overflowChecks codes now key = true
  verify : verify overflowChecks codes now key code =
    (if pending.code = code then codes.remove key else codes.insert key { pending with attempts := pending.attempts + 1 },
      .verified (decide (pending.code = code)))

/-- **What a call of `verify` does.** -/
theorem verify_cases (codes : Codes) (now : Nat) (key code : String) :
    Unread overflowChecks codes now key code ∨ ∃ pending, Read overflowChecks codes now key code pending := by
  cases hget : codes.get? key with
  | none =>
    refine Or.inl ⟨?_, ?_, Or.inl ?_⟩
    · simp only [VerificationCodeStore.reaches, hget]
    · simp [verify, hget]
    · simp only [verify, hget]
  | some pending =>
    by_cases hlive : pending.expiresAt ≤ now
    · refine Or.inl ⟨?_, ?_, Or.inr ?_⟩
      · simp [VerificationCodeStore.reaches, hget, Nat.not_lt.2 hlive]
      · simp [verify, hget, hlive]
      · simp [verify, hget, hlive]
    · by_cases hpanic : overflowChecks = true ∧ pending.attempts = maxU32
      · refine Or.inl ⟨?_, ?_, Or.inl ?_⟩
        · simp [VerificationCodeStore.reaches, hget, hpanic]
        · simp [verify, hget, hlive, hpanic]
        · simp [verify, hget, hlive, hpanic]
      · by_cases hleft : pending.maxAttempts < pending.attempts + 1
        · refine Or.inl ⟨?_, ?_, Or.inr ?_⟩
          · simp [VerificationCodeStore.reaches, hget, UInt32.not_le.2 hleft]
          · simp [verify, hget, hlive, hpanic, hleft]
          · simp [verify, hget, hlive, hpanic, hleft]
        · have hunchecked : overflowChecks = true → pending.attempts ≠ maxU32 := fun hchecks hmax => hpanic ⟨hchecks, hmax⟩
          refine Or.inr ⟨pending, hget, Nat.not_le.1 hlive, UInt32.not_lt.1 hleft, hunchecked, ?_, ?_⟩
          · simp only [VerificationCodeStore.reaches, hget, Nat.not_le.1 hlive, UInt32.not_lt.1 hleft, decide_true,
              Bool.true_and, Bool.and_true, Bool.not_eq_true', Bool.and_eq_false_iff, decide_eq_false_iff_not]
            exact Classical.or_iff_not_imp_left.2 (fun hchecks => hunchecked (Bool.not_eq_false _ ▸ hchecks))
          · simp only [VerificationCodeStore.verify, hget, hlive, hpanic, hleft, if_false, constantTimeEq_toUTF8,
              decide_eq_true_eq]

/-- No counter goes round to zero in this step. -/
def NoWrap (codes : Codes) (event : CodeEvent) : Prop :=
  overflowChecks = true ∨ ∀ key code pending, event.op = .verify key code → codes.get? key = some pending →
    event.now < pending.expiresAt → pending.attempts ≠ maxU32

end Verify

/-! ## Codes as secrets -/

/-- What a call stores, and under which key. -/
def stored? (event : CodeEvent) : Option (String × StoredCode) :=
  match event.op with
  | .store key code ttl => some (key, ⟨code, event.now + ttl, 3⟩)
  | .storeWithAttempts key code ttl maxAttempts => some (key, ⟨code, event.now + ttl, max maxAttempts.toNat 1⟩)
  | .verify _ _ => none

def secrets (overflowChecks : Bool) : Lib.SecretStore Codes CodeEvent CodeAnswer String StoredCode where
  machine := machine overflowChecks
  slot codes key := (codes.get? key).map (fun pending => (pending.stored, pending.attempts.toNat))
  limit := StoredCode.limit
  put? := stored?
  compares codes event key :=
    match event.op with
    | .verify key' _ => decide (key' = key) && reaches overflowChecks codes event.now key
    | _ => false
  hits codes event key :=
    match event.op with
    | .verify key' _ => decide (key' = key) && decide ((machine overflowChecks).out codes event = .verified true)
    | _ => false

theorem slot_eq (overflowChecks : Bool) {codes : Codes} {key : String} {pending : PendingCode}
    (hget : codes.get? key = some pending) :
    (secrets overflowChecks).slot codes key = some (pending.stored, pending.attempts.toNat) := by
  change (codes.get? key).map _ = _
  rw [hget]
  rfl

/-- Another code stays as it is when a code is stored, or has expired and goes. -/
theorem get?_storeWithAttempts_of_ne (codes : Codes) (now : Nat) {key key' : String} (hne : key' ≠ key) (code : String)
    (ttl : Nat) (maxAttempts : UInt32) :
    (storeWithAttempts codes now key code ttl maxAttempts).get? key' = codes.get? key' ∨
      ∃ pending, codes.get? key' = some pending ∧ pending.expiresAt ≤ now ∧
        (storeWithAttempts codes now key code ttl maxAttempts).get? key' = none := by
  unfold storeWithAttempts
  rw [HashMap.get?_insert_of_ne _ _ hne]
  rcases codes.get?_retain_cases (fun _ v => decide (now < v.expiresAt)) key' with hsame | ⟨pending, hget, hold, hnone⟩
  · exact Or.inl hsame
  · exact Or.inr ⟨pending, hget, Nat.not_lt.1 (of_decide_eq_false hold), hnone⟩

theorem toNat_max_one (x : UInt32) : (max x 1).toNat = max x.toNat 1 := by
  change (if x ≤ 1 then 1 else x).toNat = max x.toNat 1
  split
  · rename_i hle
    have hnat : x.toNat ≤ 1 := UInt32.le_iff_toNat_le.1 hle
    exact (Nat.max_eq_right hnat).symm
  · rename_i hlt
    have hnat : 1 < x.toNat := UInt32.lt_iff_toNat_lt.1 (UInt32.not_le.1 hlt)
    exact (Nat.max_eq_left (Nat.le_of_lt hnat)).symm

theorem toNat_add_one {x : UInt32} (hx : x ≠ maxU32) : (x + 1).toNat = x.toNat + 1 := by
  have hlt := x.toNat_lt
  have hne : x.toNat ≠ maxU32.toNat := fun h => hx (UInt32.toNat_inj.1 h)
  rw [UInt32.toNat_add]
  change (x.toNat + 1) % 4294967296 = x.toNat + 1
  change x.toNat ≠ 4294967295 at hne
  omega

/-- A call that stores is a turn. -/
theorem turn_of_store {overflowChecks : Bool} {codes : Codes} {event : CodeEvent} {key code : String} {ttl : Nat}
    {maxAttempts : UInt32}
    (hstep : (machine overflowChecks).step codes event = storeWithAttempts codes event.now key code ttl maxAttempts)
    (hput : stored? event = some (key, ⟨code, event.now + ttl, max maxAttempts.toNat 1⟩))
    (hcompares : ∀ key', (secrets overflowChecks).compares codes event key' = false)
    (hhits : ∀ key', (secrets overflowChecks).hits codes event key' = false) (key' : String) :
    (secrets overflowChecks).StepTurn codes event key' := by
  have hslot : (secrets overflowChecks).slot ((secrets overflowChecks).machine.step codes event) key' =
      ((storeWithAttempts codes event.now key code ttl maxAttempts).get? key').map
        (fun pending => (pending.stored, pending.attempts.toNat)) := by
    rw [← hstep]
    rfl
  refine ⟨fun v hv => ⟨?_, hcompares key'⟩, fun hcompared => ?_, fun hhit => ?_, fun hother _ => ?_⟩
  · obtain ⟨rfl, rfl⟩ := Prod.mk.inj (Option.some.inj (hput.symm.trans hv))
    rw [hslot, storeWithAttempts, HashMap.get?_insert_self, Option.map_some, PendingCode.stored, toNat_max_one]
    rfl
  · rw [hcompares] at hcompared
    cases hcompared
  · rw [hhits] at hhit
    cases hhit
  · have hne : key' ≠ key := fun heq => hother _ (heq ▸ hput)
    rw [hslot]
    rcases get?_storeWithAttempts_of_ne codes event.now hne code ttl maxAttempts with hsame | ⟨pending, -, -, hnone⟩
    · rw [hsame]
      exact Or.inl rfl
    · rw [hnone]
      exact Or.inr rfl

/-- A call that verifies is a turn about its key. -/
theorem turn_of_verify {overflowChecks : Bool} {codes : Codes} {now : Nat} {key code : String}
    (h : NoWrap overflowChecks codes ⟨now, .verify key code⟩) :
    (secrets overflowChecks).StepTurn codes ⟨now, .verify key code⟩ key := by
  have hslot : ∀ m : Codes, (secrets overflowChecks).slot m key =
      (m.get? key).map (fun pending => (pending.stored, pending.attempts.toNat)) := fun _ => rfl
  have hafter : (secrets overflowChecks).machine.step codes ⟨now, .verify key code⟩ =
      (verify overflowChecks codes now key code).1 := rfl
  have hcompares : (secrets overflowChecks).compares codes ⟨now, .verify key code⟩ key =
      reaches overflowChecks codes now key := by
    simp [secrets]
  have hhits : (secrets overflowChecks).hits codes ⟨now, .verify key code⟩ key =
      decide ((verify overflowChecks codes now key code).2 = .verified true) := by
    change (decide (key = key) && _) = _
    rw [decide_eq_true rfl, Bool.true_and]
    rfl
  rcases verify_cases overflowChecks codes now key code with hunread | ⟨pending, hread⟩
  · refine .of_idle nofun (hcompares.trans hunread.reaches) (hhits.trans (decide_eq_false hunread.answer)) ?_
    rw [hafter]
    rcases hunread.after with hsame | hgone
    · rw [hsame]
      exact Or.inl rfl
    · rw [hgone, hslot, HashMap.get?_remove, if_pos rfl]
      exact Or.inr rfl
  · have hmax : pending.attempts ≠ maxU32 := by
      rcases h with hchecks | hnone
      · exact hread.checked hchecks
      · exact hnone key code pending rfl hread.found hread.live
    have hnext := toNat_add_one hmax
    have hleft := UInt32.le_iff_toNat_le.1 hread.left
    rw [hnext] at hleft
    refine ⟨nofun, fun _ => ⟨pending.stored, pending.attempts.toNat, slot_eq overflowChecks hread.found, hleft, ?_⟩,
      fun hhit => ⟨?_, ?_⟩, fun _ hnot => ?_⟩
    · rw [hafter, hread.verify]
      dsimp only
      split
      · rw [hslot, HashMap.get?_remove, if_pos rfl]
        exact Or.inl rfl
      · rw [hslot, HashMap.get?_insert_self, Option.map_some, hnext]
        exact Or.inr rfl
    · exact hcompares.trans hread.reaches
    · have hsame := of_decide_eq_true (hhits.symm.trans hhit)
      rw [hread.verify] at hsame
      have hcode := of_decide_eq_true (CodeAnswer.verified.inj hsame)
      rw [hafter, hread.verify, if_pos hcode, hslot, HashMap.get?_remove, if_pos rfl]
      rfl
    · cases (hcompares.trans hread.reaches).symm.trans hnot

/-- A call that verifies leaves the other codes as they are. -/
theorem get?_verify_of_ne (overflowChecks : Bool) (codes : Codes) (now : Nat) {key key' : String} (hne : key' ≠ key)
    (code : String) : (verify overflowChecks codes now key code).1.get? key' = codes.get? key' := by
  have hremove : (codes.remove key).get? key' = codes.get? key' := by rw [HashMap.get?_remove, if_neg hne]
  rcases verify_cases overflowChecks codes now key code with hunread | ⟨pending, hread⟩
  · rcases hunread.after with hsame | hgone
    · rw [hsame]
    · rw [hgone, hremove]
  · rw [hread.verify]
    dsimp only
    split
    · exact hremove
    · exact HashMap.get?_insert_of_ne _ _ hne

/-- **Without a wrap each call is a turn** about each key. -/
theorem turn_of_noWrap {overflowChecks : Bool} {codes : Codes} {event : CodeEvent}
    (h : NoWrap overflowChecks codes event) (key : String) : (secrets overflowChecks).StepTurn codes event key := by
  obtain ⟨now, op⟩ := event
  cases op with
  | store key' code ttl => exact turn_of_store rfl rfl (fun _ => rfl) (fun _ => rfl) key
  | storeWithAttempts key' code ttl maxAttempts => exact turn_of_store rfl rfl (fun _ => rfl) (fun _ => rfl) key
  | verify key' code =>
    by_cases hkey : key' = key
    · subst hkey
      exact turn_of_verify h
    · have hcompares : (secrets overflowChecks).compares codes ⟨now, .verify key' code⟩ key = false := by
        simp [secrets, hkey]
      have hhits : (secrets overflowChecks).hits codes ⟨now, .verify key' code⟩ key = false := by
        simp [secrets, hkey]
      refine .of_idle nofun hcompares hhits (Or.inl ?_)
      exact congrArg (Option.map _) (get?_verify_of_ne overflowChecks codes now (Ne.symm hkey) code)

/-- A wrap is one comparison too many. -/
theorem exists_of_not_noWrap {overflowChecks : Bool} {codes : Codes} {event : CodeEvent}
    (h : ¬ NoWrap overflowChecks codes event) :
    ∃ key v t, (secrets overflowChecks).slot codes key = some (v, t) ∧ (secrets overflowChecks).limit v ≤ t ∧
      (secrets overflowChecks).compares codes event key = true := by
  obtain ⟨now, op⟩ := event
  simp only [NoWrap, not_or, not_forall, not_not, Bool.not_eq_true] at h
  obtain ⟨hchecks, key, code, pending, rfl, hget, hlive, hmax⟩ := h
  refine ⟨key, pending.stored, pending.attempts.toNat, slot_eq overflowChecks hget, ?_, ?_⟩
  · rw [hmax]
    exact Nat.le_of_lt_succ pending.maxAttempts.toNat_lt
  · change (decide (key = key) && reaches overflowChecks codes now key) = true
    have hzero : maxU32 + 1 ≤ pending.maxAttempts := UInt32.le_iff_toNat_le.2 (Nat.zero_le _)
    simp only [decide_true, Bool.true_and, reaches, hget, hlive, hchecks, hmax, hzero, Bool.false_and, Bool.not_false]

/-! ## Runs -/

section Runs
variable (overflowChecks : Bool) (es : List CodeEvent)

/-- The codes after the first `n` calls, from an empty store. -/
def codesAt (n : Nat) : Codes := (machine overflowChecks).run HashMap.empty (es.take n)

/-- Call `n` verifies the code under the key, with success. -/
def VerifiedAt (n now : Nat) (key code : String) : Prop :=
  es[n]? = some ⟨now, .verify key code⟩ ∧
    (machine overflowChecks).out (codesAt overflowChecks es n) ⟨now, .verify key code⟩ = .verified true

/-- **Codes bound guessing.** -/
structure CodesBounded : Prop where
  /-- A code is compared within its limit, and not after a success. -/
  oneTime : (secrets overflowChecks).OneTimeRun HashMap.empty es
  /-- A success is for the code stored last under the key, before it expires. -/
  verified : ∀ n now key code, VerifiedAt overflowChecks es n now key code →
    ∃ j stored, LastPut ((secrets overflowChecks).PutAt es) j n key stored ∧ stored.code = code ∧ now < stored.expiresAt
  /-- A code has one success. -/
  once : ∀ n n' now now' key code code', VerifiedAt overflowChecks es n now key code → n < n' →
    VerifiedAt overflowChecks es n' now' key code' → ∃ j stored, n < j ∧ j < n' ∧ (secrets overflowChecks).PutAt es j key stored
  /-- A call with another key leaves a code as it is, unless it has expired. -/
  others : ∀ n event key, es[n]? = some event → event.op.key ≠ key →
    (codesAt overflowChecks es (n + 1)).get? key = (codesAt overflowChecks es n).get? key ∨
      ∃ pending, (codesAt overflowChecks es n).get? key = some pending ∧ pending.expiresAt ≤ event.now ∧
        (codesAt overflowChecks es (n + 1)).get? key = none

variable {overflowChecks es}

theorem hitAt_of_verifiedAt {n now : Nat} {key code : String} (h : VerifiedAt overflowChecks es n now key code) :
    (secrets overflowChecks).HitAt HashMap.empty es n key := by
  obtain ⟨he, hout⟩ := h
  rw [Lib.SecretStore.hitAt_iff he]
  change (decide (key = key) && decide _) = true
  rw [decide_eq_true rfl, Bool.true_and]
  exact decide_eq_true hout

/-- A success reads a code that is still there. -/
theorem read_of_verifiedAt {n now : Nat} {key code : String} (h : VerifiedAt overflowChecks es n now key code) :
    ∃ pending, (codesAt overflowChecks es n).get? key = some pending ∧ now < pending.expiresAt ∧ pending.code = code := by
  obtain ⟨-, hout⟩ := h
  rcases verify_cases overflowChecks (codesAt overflowChecks es n) now key code with hunread | ⟨pending, hread⟩
  · exact absurd hout hunread.answer
  · have hanswer : (verify overflowChecks (codesAt overflowChecks es n) now key code).2 = .verified true := hout
    rw [hread.verify] at hanswer
    exact ⟨pending, hread.found, hread.live, of_decide_eq_true (CodeAnswer.verified.inj hanswer)⟩

theorem get?_call_of_ne (codes : Codes) (event : CodeEvent) {key : String} (hne : event.op.key ≠ key) :
    ((machine overflowChecks).step codes event).get? key = codes.get? key ∨
      ∃ pending, codes.get? key = some pending ∧ pending.expiresAt ≤ event.now ∧
        ((machine overflowChecks).step codes event).get? key = none := by
  obtain ⟨now, op⟩ := event
  cases op with
  | store key' code ttl => exact get?_storeWithAttempts_of_ne codes now (Ne.symm hne) code ttl 3
  | storeWithAttempts key' code ttl maxAttempts =>
    exact get?_storeWithAttempts_of_ne codes now (Ne.symm hne) code ttl maxAttempts
  | verify key' code => exact Or.inl (get?_verify_of_ne overflowChecks codes now (Ne.symm hne) code)

/-- **Codes bound guessing exactly when no counter goes round to zero.** -/
theorem codesBounded_iff : CodesBounded overflowChecks es ↔
    (machine overflowChecks).Along (NoWrap overflowChecks) HashMap.empty es := by
  have hiff : (secrets overflowChecks).OneTimeRun HashMap.empty es ↔
      (secrets overflowChecks).machine.Along (NoWrap overflowChecks) HashMap.empty es :=
    Lib.SecretStore.oneTime_iff (fun _ => rfl) (fun _ _ => turn_of_noWrap) (fun _ _ => exists_of_not_noWrap)
  refine ⟨fun h => hiff.1 h.oneTime, fun halong => ?_⟩
  have honce := hiff.2 halong
  exact
    { oneTime := honce
      verified := fun n now key code hverified => by
        obtain ⟨pending, hget, hlive, hcode⟩ := read_of_verifiedAt hverified
        obtain ⟨j, hlast, -⟩ := (secrets overflowChecks).lastPut_of_along (fun _ => rfl) (fun _ _ => turn_of_noWrap) halong
          (slot_eq overflowChecks hget)
        exact ⟨j, pending.stored, hlast, hcode, hlive⟩
      once := fun n n' now now' key code code' hverified hlt hverified' =>
        honce.once (hitAt_of_verifiedAt hverified) hlt (hitAt_of_verifiedAt hverified')
      others := fun n event key he hne => by
        unfold codesAt
        rw [(machine overflowChecks).run_take_succ _ he]
        exact get?_call_of_ne _ event hne }

end Runs

/-- **One-time codes bound guessing**: challenges always do, codes exactly when no counter goes round to zero. -/
theorem guessingBounded (overflowChecks : Bool) (es : List CodeEvent) (ttl : Nat) (maxAttempts : UInt32)
    (challengeEvents : List Auth.CaptchaEvent) :
    (CodesBounded overflowChecks es ↔ (machine overflowChecks).Along (NoWrap overflowChecks) HashMap.empty es) ∧
      (Auth.CaptchaVerifier.withOptions ttl maxAttempts).ChallengesBounded challengeEvents :=
  ⟨codesBounded_iff, Auth.CaptchaVerifier.challengesBounded _ challengeEvents⟩

/-! ## A code that is never used up -/

def wrongGuess : CodeEvent := ⟨1, .verify "user" "000000"⟩

/-- A code with the largest limit, and wrong guesses. -/
def wrapRun (guesses : Nat) : List CodeEvent :=
  ⟨0, .storeWithAttempts "user" "123456" (600 * 10 ^ 9) maxU32⟩ :: List.replicate guesses wrongGuess

/-- The counter goes on, whatever it has come to. -/
theorem get?_wrongGuess {codes : Codes} {attempts : UInt32}
    (hget : codes.get? "user" = some ⟨"123456", 600 * 10 ^ 9, attempts, maxU32⟩) :
    ((machine false).step codes wrongGuess).get? "user" = some ⟨"123456", 600 * 10 ^ 9, attempts + 1, maxU32⟩ := by
  have hlargest : ¬ maxU32 < attempts + 1 := by
    rw [UInt32.lt_iff_toNat_lt]
    exact Nat.not_lt.2 (Nat.le_of_lt_succ (attempts + 1).toNat_lt)
  change (verify false codes 1 "user" "000000").1.get? "user" = _
  unfold verify
  rw [hget]
  dsimp only
  rw [if_neg (by decide), if_neg (fun h => Bool.false_ne_true h.1), if_neg hlargest, constantTimeEq_toUTF8, if_neg (by decide)]
  exact HashMap.get?_insert_self _ _ _

theorem get?_wrapRun (n : Nat) : ((machine false).run HashMap.empty (wrapRun n)).get? "user" =
    some ⟨"123456", 600 * 10 ^ 9, UInt32.ofNat n, maxU32⟩ := by
  induction n with
  | zero => rfl
  | succ n ih =>
    have hrun : wrapRun (n + 1) = wrapRun n ++ [wrongGuess] := by
      unfold wrapRun
      rw [List.replicate_succ', List.cons_append]
    rw [hrun, (machine false).run_append, UInt32.ofNat_add]
    exact get?_wrongGuess ih

theorem not_noWrap_wrapRun {n : Nat} (hn : maxU32.toNat < n) :
    ¬ (machine false).Along (NoWrap false) HashMap.empty (wrapRun n) := by
  intro halong
  have hevent : (wrapRun n)[maxU32.toNat + 1]? = some wrongGuess := by
    unfold wrapRun
    rw [List.getElem?_cons_succ, List.getElem?_replicate, if_pos hn]
  have htake : (wrapRun n).take (maxU32.toNat + 1) = wrapRun maxU32.toNat := by
    unfold wrapRun
    rw [List.take_succ_cons, List.take_replicate, Nat.min_eq_left (Nat.le_of_lt hn)]
  have hstep := (machine false).along_getElem? _ _ _ halong _ _ hevent
  rw [htake] at hstep
  rcases hstep with hchecks | hnone
  · cases hchecks
  · exact hnone "user" "000000" _ rfl (get?_wrapRun _) (by decide) UInt32.ofNat_toNat

/-- **Four billion guesses of a code**, one more than its limit. -/
theorem wrapRun_not_bounded :
    (wrapRun (2 ^ 32)).Pairwise (fun e f => e.now ≤ f.now) ∧ ¬ CodesBounded false (wrapRun (2 ^ 32)) := by
  have hwraps : ¬ (machine false).Along (NoWrap false) HashMap.empty (wrapRun (2 ^ 32)) := not_noWrap_wrapRun (by decide)
  refine ⟨?_, fun hbounded => hwraps (codesBounded_iff.1 hbounded)⟩
  unfold wrapRun
  rw [List.pairwise_cons, List.pairwise_replicate]
  exact ⟨fun e _ => Nat.zero_le e.now, Or.inr (Nat.le_refl _)⟩

end VerificationCodeStore

end Service
end Kirino
