import Kirino.Lib.HashMap
import Kirino.Lib.OneTime
import Kirino.Service.Validation
import Kirino.Utils.ConstantTime
/-!
# Captcha — challenges in arithmetic (`auth/passport/captcha.rs`)

A challenge is a sum, and a response is compared as long as the challenge is in time and has attempts left.  Here the
attempts are compared with the limit before they are counted, so that the counter never leaves its range.
-/
namespace Kirino
namespace Auth

open Lib (HashMap Machine LastPut)
open Service (trim)
open Utils (constantTimeEq constantTimeEq_toUTF8)

/-- A verifier with its limits; the time to live is in nanoseconds. -/
structure CaptchaVerifier where
  ttl : Nat
  maxAttempts : UInt32

structure CaptchaChallenge where
  id : String
  challengeData : List UInt8
deriving DecidableEq

inductive CaptchaOp where
  | generateChallenge (id : String) (a b : UInt32)
  | verify (challengeId userResponse : String)
  | cleanupExpired

/-- A call, the instant it reads under the lock, and how long after it the second reading comes. -/
structure CaptchaEvent where
  now : Nat
  later : Nat
  op : CaptchaOp

inductive CaptchaAnswer where
  | issued (challenge : CaptchaChallenge)
  | verified (result : Except String Bool)
  | cleaned
deriving DecidableEq

namespace CaptchaVerifier

structure ChallengeEntry where
  answer : String
  createdAt : Nat
  attempts : UInt32
deriving DecidableEq, Repr

abbrev Challenges := HashMap String ChallengeEntry

def withOptions (ttl : Nat) (maxAttempts : UInt32) : CaptchaVerifier := ⟨ttl, max maxAttempts 1⟩

def cleanupThreshold : Nat := 1000

section Calls
variable (verifier : CaptchaVerifier)

def sweep (challenges : Challenges) (now : Nat) : Challenges :=
  challenges.retain (fun _ entry => decide (now - entry.createdAt ≤ verifier.ttl))

/-- The sweep that a verification makes of a full table. -/
def sweepFull (challenges : Challenges) (now : Nat) : Challenges :=
  if challenges.len > cleanupThreshold then verifier.sweep challenges now else challenges

def generateChallenge (challenges : Challenges) (now : Nat) (id : String) (a b : UInt32) : Challenges × CaptchaAnswer :=
  ((verifier.sweep challenges now).insert id ⟨toString (a + b), now, 0⟩,
    .issued ⟨id, (toString a ++ " + " ++ toString b ++ " = ?").toUTF8.data.toList⟩)

def verify (challenges : Challenges) (now later : Nat) (challengeId userResponse : String) : Challenges × CaptchaAnswer :=
  match challenges.get? challengeId with
  | none => (challenges, .verified (.error "challenge not found or expired"))
  | some entry =>
    if verifier.ttl < now - entry.createdAt then
      (challenges.remove challengeId, .verified (.error "challenge expired"))
    else if verifier.maxAttempts ≤ entry.attempts then
      (challenges.remove challengeId,
        .verified (.error ("too many attempts (max " ++ toString verifier.maxAttempts ++ ")")))
    else
      let entry := { entry with attempts := entry.attempts + 1 }
      let correct := constantTimeEq entry.answer.toUTF8.data.toList (trim userResponse).toUTF8.data.toList
      let challenges := if correct then challenges.remove challengeId else challenges.insert challengeId entry
      (verifier.sweepFull challenges (now + later), .verified (.ok correct))

def call (challenges : Challenges) (event : CaptchaEvent) : Challenges × CaptchaAnswer :=
  match event.op with
  | .generateChallenge id a b => verifier.generateChallenge challenges event.now id a b
  | .verify challengeId userResponse => verifier.verify challenges event.now event.later challengeId userResponse
  | .cleanupExpired => (verifier.sweep challenges event.now, .cleaned)

def machine : Machine Challenges CaptchaEvent CaptchaAnswer where
  step challenges event := (verifier.call challenges event).1
  out challenges event := (verifier.call challenges event).2

/-! ## What a response does -/

/-- The call reaches its comparison. -/
def reaches (challenges : Challenges) (now : Nat) (challengeId : String) : Bool :=
  match challenges.get? challengeId with
  | some entry => decide (now - entry.createdAt ≤ verifier.ttl) && decide (entry.attempts < verifier.maxAttempts)
  | none => false

/-- A challenge that has no comparison with this call: it stays as it is, or goes. -/
structure Unread (challenges : Challenges) (now later : Nat) (challengeId userResponse : String) : Prop where
  reaches : verifier.reaches challenges now challengeId = false
  answer : (verifier.verify challenges now later challengeId userResponse).2 ≠ .verified (.ok true)
  after : (verifier.verify challenges now later challengeId userResponse).1 = challenges ∨
    (verifier.verify challenges now later challengeId userResponse).1 = challenges.remove challengeId

/-- The challenges after a comparison, before a sweep. -/
def compared (challenges : Challenges) (challengeId userResponse : String) (entry : ChallengeEntry) : Challenges :=
  if entry.answer = trim userResponse then challenges.remove challengeId
  else challenges.insert challengeId { entry with attempts := entry.attempts + 1 }

/-- A challenge that is compared: it is in time, and its attempts are not used up. -/
structure Read (challenges : Challenges) (now later : Nat) (challengeId userResponse : String) (entry : ChallengeEntry) :
    Prop where
  found : challenges.get? challengeId = some entry
  live : now - entry.createdAt ≤ verifier.ttl
  left : entry.attempts < verifier.maxAttempts
  reaches : verifier.reaches challenges now challengeId = true
  answer : (verifier.verify challenges now later challengeId userResponse).2 =
    .verified (.ok (decide (entry.answer = trim userResponse)))
  after : (verifier.verify challenges now later challengeId userResponse).1 =
      compared challenges challengeId userResponse entry ∨
    (verifier.verify challenges now later challengeId userResponse).1 =
      verifier.sweep (compared challenges challengeId userResponse entry) (now + later)

theorem sweepFull_cases (challenges : Challenges) (now : Nat) :
    verifier.sweepFull challenges now = challenges ∨ verifier.sweepFull challenges now = verifier.sweep challenges now := by
  unfold sweepFull
  split
  · exact Or.inr rfl
  · exact Or.inl rfl

/-- **What a call of `verify` does.** -/
theorem verify_cases (challenges : Challenges) (now later : Nat) (challengeId userResponse : String) :
    verifier.Unread challenges now later challengeId userResponse ∨
      ∃ entry, verifier.Read challenges now later challengeId userResponse entry := by
  cases hget : challenges.get? challengeId with
  | none =>
    refine Or.inl ⟨?_, ?_, Or.inl ?_⟩
    · simp only [CaptchaVerifier.reaches, hget]
    · simp [verify, hget]
    · simp only [verify, hget]
  | some entry =>
    by_cases hlive : verifier.ttl < now - entry.createdAt
    · refine Or.inl ⟨?_, ?_, Or.inr ?_⟩
      · simp only [CaptchaVerifier.reaches, hget, Nat.not_le.2 hlive, decide_false, Bool.false_and]
      · simp [verify, hget, hlive]
      · simp only [verify, hget, hlive, if_true]
    · by_cases hleft : verifier.maxAttempts ≤ entry.attempts
      · refine Or.inl ⟨?_, ?_, Or.inr ?_⟩
        · simp only [CaptchaVerifier.reaches, hget, UInt32.not_lt.2 hleft, decide_false, Bool.and_false]
        · simp [verify, hget, hlive, hleft]
        · simp only [verify, hget, hlive, hleft, if_true, if_false]
      · refine Or.inr ⟨entry, hget, Nat.not_lt.1 hlive, UInt32.not_le.1 hleft, ?_, ?_, ?_⟩
        · simp only [CaptchaVerifier.reaches, hget, Nat.not_lt.1 hlive, UInt32.not_le.1 hleft, decide_true, Bool.and_self]
        · simp only [verify, hget, hlive, hleft, if_false, constantTimeEq_toUTF8]
        · simp only [verify, hget, hlive, hleft, if_false, constantTimeEq_toUTF8, decide_eq_true_eq]
          exact verifier.sweepFull_cases (compared challenges challengeId userResponse entry) (now + later)

/-! ## Challenges as secrets -/

/-- A challenge as it is issued. -/
structure StoredChallenge where
  answer : String
  createdAt : Nat
deriving DecidableEq, Repr

def ChallengeEntry.stored (entry : ChallengeEntry) : StoredChallenge := ⟨entry.answer, entry.createdAt⟩

/-- What a call issues, and under which id. -/
def issued? (event : CaptchaEvent) : Option (String × StoredChallenge) :=
  match event.op with
  | .generateChallenge id a b => some (id, ⟨toString (a + b), event.now⟩)
  | _ => none

def secrets : Lib.SecretStore Challenges CaptchaEvent CaptchaAnswer String StoredChallenge where
  machine := verifier.machine
  slot challenges id := (challenges.get? id).map (fun entry => (entry.stored, entry.attempts.toNat))
  limit _ := verifier.maxAttempts.toNat
  put? := issued?
  compares challenges event id :=
    match event.op with
    | .verify challengeId _ => decide (challengeId = id) && verifier.reaches challenges event.now id
    | _ => false
  hits challenges event id :=
    match event.op with
    | .verify challengeId _ =>
      decide (challengeId = id) && decide (verifier.machine.out challenges event = .verified (.ok true))
    | _ => false

variable {verifier} {challenges : Challenges}

theorem slot_eq {id : String} {entry : ChallengeEntry} (hget : challenges.get? id = some entry) :
    verifier.secrets.slot challenges id = some (entry.stored, entry.attempts.toNat) := by
  change (challenges.get? id).map _ = _
  rw [hget]
  rfl

theorem slot_eq_none {id : String} (hget : challenges.get? id = none) : verifier.secrets.slot challenges id = none := by
  change (challenges.get? id).map _ = _
  rw [hget]
  rfl

/-- A sweep leaves a challenge as it is, or it is past its time and goes. -/
theorem get?_sweep_cases (verifier : CaptchaVerifier) (challenges : Challenges) (now : Nat) (id : String) :
    (verifier.sweep challenges now).get? id = challenges.get? id ∨ ∃ entry, challenges.get? id = some entry ∧
      verifier.ttl < now - entry.createdAt ∧ (verifier.sweep challenges now).get? id = none := by
  rcases challenges.get?_retain_cases (fun _ entry => decide (now - entry.createdAt ≤ verifier.ttl)) id with
    hsame | ⟨entry, hget, hold, hnone⟩
  · exact Or.inl hsame
  · exact Or.inr ⟨entry, hget, Nat.not_le.1 (of_decide_eq_false hold), hnone⟩

theorem slot_sweep_cases (challenges : Challenges) (now : Nat) (id : String) :
    verifier.secrets.slot (verifier.sweep challenges now) id = verifier.secrets.slot challenges id ∨
      verifier.secrets.slot (verifier.sweep challenges now) id = none := by
  rcases get?_sweep_cases verifier challenges now id with hsame | ⟨_, -, -, hnone⟩
  · exact Or.inl (congrArg (Option.map _) hsame)
  · exact Or.inr (slot_eq_none hnone)

theorem get?_compared_of_ne (challenges : Challenges) {id challengeId : String} (hne : id ≠ challengeId)
    (userResponse : String) (entry : ChallengeEntry) :
    (compared challenges challengeId userResponse entry).get? id = challenges.get? id := by
  unfold compared
  split
  · rw [HashMap.get?_remove, if_neg hne]
  · exact HashMap.get?_insert_of_ne _ _ hne

/-- A call about one challenge leaves another as it is, or it is past its time and goes. -/
theorem get?_call_of_ne (event : CaptchaEvent) {id : String} (hissued : ∀ stored, issued? event ≠ some (id, stored))
    (hverify : ∀ userResponse, event.op ≠ .verify id userResponse) :
    (verifier.machine.step challenges event).get? id = challenges.get? id ∨ ∃ entry, challenges.get? id = some entry ∧
      verifier.ttl < event.now + event.later - entry.createdAt ∧ (verifier.machine.step challenges event).get? id = none := by
  obtain ⟨now, later, op⟩ := event
  have hsweep : ∀ m : Challenges, m.get? id = challenges.get? id → ∀ instant, instant ≤ now + later →
      (verifier.sweep m instant).get? id = challenges.get? id ∨ ∃ entry, challenges.get? id = some entry ∧
        verifier.ttl < now + later - entry.createdAt ∧ (verifier.sweep m instant).get? id = none := by
    intro m hm instant hle
    rcases get?_sweep_cases verifier m instant id with hsame | ⟨entry, hget, hold, hnone⟩
    · exact Or.inl (hsame.trans hm)
    · exact Or.inr ⟨entry, hm.symm.trans hget, by omega, hnone⟩
  cases op with
  | generateChallenge id' a b =>
    have hne : id ≠ id' := by
      rintro rfl
      exact hissued _ rfl
    have hafter : (verifier.machine.step challenges ⟨now, later, .generateChallenge id' a b⟩).get? id =
        (verifier.sweep challenges now).get? id := HashMap.get?_insert_of_ne _ _ hne
    rw [hafter]
    exact hsweep challenges rfl now (Nat.le_add_right now later)
  | verify challengeId userResponse =>
    have hne : id ≠ challengeId := by
      rintro rfl
      exact hverify _ rfl
    have hafter : verifier.machine.step challenges ⟨now, later, .verify challengeId userResponse⟩ =
        (verifier.verify challenges now later challengeId userResponse).1 := rfl
    rw [hafter]
    rcases verifier.verify_cases challenges now later challengeId userResponse with hunread | ⟨entry, hread⟩
    · rcases hunread.after with hsame | hgone
      · exact Or.inl (congrArg (HashMap.get? · id) hsame)
      · rw [hgone, HashMap.get?_remove, if_neg hne]
        exact Or.inl rfl
    · have hcompared := get?_compared_of_ne challenges hne userResponse entry
      rcases hread.after with hsame | hswept
      · rw [hsame]
        exact Or.inl hcompared
      · rw [hswept]
        exact hsweep _ hcompared (now + later) (Nat.le_refl _)
  | cleanupExpired => exact hsweep challenges rfl now (Nat.le_add_right now later)

theorem Read.toNat_next {now later : Nat} {challengeId userResponse : String} {entry : ChallengeEntry}
    (h : verifier.Read challenges now later challengeId userResponse entry) :
    (entry.attempts + 1).toNat = entry.attempts.toNat + 1 := by
  have hleft := UInt32.lt_iff_toNat_lt.1 h.left
  have hlt := verifier.maxAttempts.toNat_lt
  rw [UInt32.toNat_add]
  exact Nat.mod_eq_of_lt (Nat.lt_of_le_of_lt hleft hlt)

/-- What a comparison leaves: a sweep after it leaves the place as it is, or empties it. -/
theorem Read.slot_cases {now later : Nat} {challengeId userResponse : String} {entry : ChallengeEntry}
    (h : verifier.Read challenges now later challengeId userResponse entry) :
    verifier.secrets.slot (verifier.verify challenges now later challengeId userResponse).1 challengeId =
        verifier.secrets.slot (compared challenges challengeId userResponse entry) challengeId ∨
      verifier.secrets.slot (verifier.verify challenges now later challengeId userResponse).1 challengeId = none := by
  rcases h.after with hsame | hswept
  · rw [hsame]
    exact Or.inl rfl
  · rw [hswept]
    exact slot_sweep_cases _ _ _

/-- The right response uses the challenge up. -/
theorem Read.slot_of_right {now later : Nat} {challengeId userResponse : String} {entry : ChallengeEntry}
    (h : verifier.Read challenges now later challengeId userResponse entry) (hright : entry.answer = trim userResponse) :
    verifier.secrets.slot (verifier.verify challenges now later challengeId userResponse).1 challengeId = none := by
  rcases h.slot_cases with hslot | hnone
  · rw [hslot, compared, if_pos hright]
    exact slot_eq_none (by rw [HashMap.get?_remove, if_pos rfl])
  · exact hnone

/-- Any response takes an attempt, or the challenge with it. -/
theorem Read.slot_counts {now later : Nat} {challengeId userResponse : String} {entry : ChallengeEntry}
    (h : verifier.Read challenges now later challengeId userResponse entry) :
    verifier.secrets.slot (verifier.verify challenges now later challengeId userResponse).1 challengeId = none ∨
      verifier.secrets.slot (verifier.verify challenges now later challengeId userResponse).1 challengeId =
        some (entry.stored, entry.attempts.toNat + 1) := by
  by_cases hright : entry.answer = trim userResponse
  · exact Or.inl (h.slot_of_right hright)
  · rcases h.slot_cases with hslot | hnone
    · rw [hslot, compared, if_neg hright, slot_eq (HashMap.get?_insert_self _ _ _), h.toNat_next]
      exact Or.inr rfl
    · exact Or.inl hnone

/-- A response is a turn about its challenge. -/
theorem turn_of_verify (challenges : Challenges) (now later : Nat) (challengeId userResponse : String) :
    verifier.secrets.StepTurn challenges ⟨now, later, .verify challengeId userResponse⟩ challengeId := by
  have hafter : verifier.secrets.machine.step challenges ⟨now, later, .verify challengeId userResponse⟩ =
      (verifier.verify challenges now later challengeId userResponse).1 := rfl
  have hcompares : verifier.secrets.compares challenges ⟨now, later, .verify challengeId userResponse⟩ challengeId =
      verifier.reaches challenges now challengeId := by
    change (decide (challengeId = challengeId) && _) = _
    rw [decide_eq_true rfl, Bool.true_and]
  have hhits : verifier.secrets.hits challenges ⟨now, later, .verify challengeId userResponse⟩ challengeId =
      decide ((verifier.verify challenges now later challengeId userResponse).2 = .verified (.ok true)) := by
    change (decide (challengeId = challengeId) && _) = _
    rw [decide_eq_true rfl, Bool.true_and]
    rfl
  rcases verifier.verify_cases challenges now later challengeId userResponse with hunread | ⟨entry, hread⟩
  · refine .of_idle nofun (hcompares.trans hunread.reaches) (hhits.trans (decide_eq_false hunread.answer)) ?_
    rw [hafter]
    rcases hunread.after with hsame | hgone
    · rw [hsame]
      exact Or.inl rfl
    · rw [hgone]
      exact Or.inr (slot_eq_none (by rw [HashMap.get?_remove, if_pos rfl]))
  · have hleft := UInt32.lt_iff_toNat_lt.1 hread.left
    have hturn := hcompares.trans hread.reaches
    refine ⟨nofun, fun _ => ⟨entry.stored, entry.attempts.toNat, slot_eq hread.found, hleft, ?_⟩, fun hhit => ⟨hturn, ?_⟩,
      fun _ hnot => ?_⟩
    · rw [hafter]
      exact hread.slot_counts
    · have hanswer := of_decide_eq_true (hhits.symm.trans hhit)
      rw [hread.answer] at hanswer
      rw [hafter]
      exact hread.slot_of_right (of_decide_eq_true (Except.ok.inj (CaptchaAnswer.verified.inj hanswer)))
    · cases hturn.symm.trans hnot

theorem slot_call_of_ne (event : CaptchaEvent) {id : String} (hissued : ∀ stored, issued? event ≠ some (id, stored))
    (hverify : ∀ userResponse, event.op ≠ .verify id userResponse) :
    verifier.secrets.slot (verifier.secrets.machine.step challenges event) id = verifier.secrets.slot challenges id ∨
      verifier.secrets.slot (verifier.secrets.machine.step challenges event) id = none := by
  rcases get?_call_of_ne event hissued hverify with hsame | ⟨_, -, -, hgone⟩
  · exact Or.inl (congrArg (Option.map _) hsame)
  · exact Or.inr (slot_eq_none hgone)

/-- **Each call is a turn** about each challenge. -/
theorem turn_of_call (challenges : Challenges) (event : CaptchaEvent) (id : String) :
    verifier.secrets.StepTurn challenges event id := by
  obtain ⟨now, later, op⟩ := event
  cases op with
  | generateChallenge id' a b =>
    refine ⟨fun v hv => ⟨?_, rfl⟩, nofun, nofun, fun hnone _ => ?_⟩
    · obtain ⟨rfl, rfl⟩ := Prod.mk.inj (Option.some.inj hv)
      exact slot_eq (HashMap.get?_insert_self _ _ _)
    · exact slot_call_of_ne _ hnone nofun
  | verify challengeId userResponse =>
    by_cases hid : challengeId = id
    · subst hid
      exact turn_of_verify challenges now later challengeId userResponse
    · have hcompares : verifier.secrets.compares challenges ⟨now, later, .verify challengeId userResponse⟩ id = false := by
        simp [secrets, hid]
      have hhits : verifier.secrets.hits challenges ⟨now, later, .verify challengeId userResponse⟩ id = false := by
        simp [secrets, hid]
      exact .of_idle nofun hcompares hhits (slot_call_of_ne _ nofun fun r hr => hid (CaptchaOp.verify.inj hr).1)
  | cleanupExpired => exact .of_idle nofun rfl rfl (slot_call_of_ne _ nofun nofun)

/-! ## Runs -/

section Runs
variable (verifier) (es : List CaptchaEvent)

/-- The challenges after the first `n` calls, from an empty table. -/
def challengesAt (n : Nat) : Challenges := verifier.machine.run HashMap.empty (es.take n)

/-- Call `n` verifies the response to the challenge, with success. -/
def VerifiedAt (n now : Nat) (id userResponse : String) : Prop :=
  ∃ later, es[n]? = some ⟨now, later, .verify id userResponse⟩ ∧
    verifier.machine.out (verifier.challengesAt es n) ⟨now, later, .verify id userResponse⟩ = .verified (.ok true)

/-- **Challenges bound guessing.** -/
structure ChallengesBounded : Prop where
  /-- A challenge is compared within the limit, and not after a success. -/
  oneTime : verifier.secrets.OneTimeRun HashMap.empty es
  /-- A success is for the challenge issued last under the id, in its time; the response counts without the white space
  around it. -/
  verified : ∀ n now id userResponse, verifier.VerifiedAt es n now id userResponse →
    ∃ j stored, LastPut (verifier.secrets.PutAt es) j n id stored ∧ stored.answer = trim userResponse ∧
      now ≤ stored.createdAt + verifier.ttl
  /-- A challenge has one success. -/
  once : ∀ n n' now now' id r r', verifier.VerifiedAt es n now id r → n < n' → verifier.VerifiedAt es n' now' id r' →
    ∃ j stored, n < j ∧ j < n' ∧ verifier.secrets.PutAt es j id stored
  /-- A call about something else leaves a challenge as it is, unless it is past its time. -/
  others : ∀ n event id, es[n]? = some event → (∀ stored, issued? event ≠ some (id, stored)) →
    (∀ userResponse, event.op ≠ .verify id userResponse) →
      (verifier.challengesAt es (n + 1)).get? id = (verifier.challengesAt es n).get? id ∨
        ∃ entry, (verifier.challengesAt es n).get? id = some entry ∧
          verifier.ttl < event.now + event.later - entry.createdAt ∧ (verifier.challengesAt es (n + 1)).get? id = none

variable {verifier es}

theorem hitAt_of_verifiedAt {n now : Nat} {id userResponse : String} (h : verifier.VerifiedAt es n now id userResponse) :
    verifier.secrets.HitAt HashMap.empty es n id := by
  obtain ⟨later, he, hout⟩ := h
  rw [Lib.SecretStore.hitAt_iff he]
  change (decide (id = id) && decide _) = true
  rw [decide_eq_true rfl, Bool.true_and]
  exact decide_eq_true hout

/-- A success reads a challenge that is still there. -/
theorem read_of_verifiedAt {n now : Nat} {id userResponse : String} (h : verifier.VerifiedAt es n now id userResponse) :
    ∃ entry, (verifier.challengesAt es n).get? id = some entry ∧ now - entry.createdAt ≤ verifier.ttl ∧
      entry.answer = trim userResponse := by
  obtain ⟨later, -, hout⟩ := h
  rcases verifier.verify_cases (verifier.challengesAt es n) now later id userResponse with hunread | ⟨entry, hread⟩
  · exact absurd hout hunread.answer
  · have hanswer := hread.answer.symm.trans hout
    exact ⟨entry, hread.found, hread.live, of_decide_eq_true (Except.ok.inj (CaptchaAnswer.verified.inj hanswer))⟩

/-- **Challenges bound guessing**, in any run from an empty table. -/
theorem challengesBounded (verifier : CaptchaVerifier) (es : List CaptchaEvent) : verifier.ChallengesBounded es := by
  have honce : verifier.secrets.OneTimeRun HashMap.empty es :=
    Lib.oneTime_of_turns (fun n id => Lib.SecretStore.turn_of_step (fun event _ => turn_of_call _ event id)) (fun _ => rfl)
  exact
    { oneTime := honce
      verified := fun n now id userResponse hverified => by
        obtain ⟨entry, hget, hlive, hanswer⟩ := read_of_verifiedAt hverified
        obtain ⟨j, hlast, -⟩ := verifier.secrets.lastPut_of_along (P := fun _ _ => True) (fun _ => rfl)
          (fun _ _ _ => turn_of_call _ _) (Lib.Machine.along_of_forall _ _ _ _ (fun _ _ _ => trivial)) (slot_eq hget)
        exact ⟨j, entry.stored, hlast, hanswer, Nat.sub_le_iff_le_add'.1 hlive⟩
      once := fun n n' now now' id r r' hverified hlt hverified' =>
        honce.once (hitAt_of_verifiedAt hverified) hlt (hitAt_of_verifiedAt hverified')
      others := fun n event id he hissued hverify => by
        unfold challengesAt
        rw [verifier.machine.run_take_succ _ he]
        exact get?_call_of_ne event hissued hverify }

end Runs

end Calls

end CaptchaVerifier

end Auth
end Kirino
