import Kirino.Lib.SingleUse
import Kirino.Auth.Webauthn.Challenge
/-!
# ChallengeRuns — challenges are single use and bound

In every run a challenge is verified at most once, with the purpose and the user of its issue and within its time; the
first call that asks for it burns it, whatever it answers; and the store stays within its capacity (`singleUse`).
What carries the argument is that an entry of the store has an issue behind it that no call has asked for since
(`Live`), and that a call that holds an entry was the first to ask for it.
-/
namespace Kirino
namespace Auth
namespace Webauthn

open Lib (HashMap PoolInv Unasked FirstAsk GivenOnce)
open Lib.Program (spawned)

section Definitions
variable (sha256 : List UInt8 → List UInt8) (limits : ChallengeLimits) (now : Nat) (es : List ChallengeEvent)

/-- The pool after the first `n` events of a run that begins with an empty store. -/
def challengePool (n : Nat) : Lib.Pool ChallengeStore ChallengeCall :=
  (challengeMachine sha256 limits).run ⟨⟨HashMap.empty, now⟩, []⟩ (es.take n)

def challengeClock (n : Nat) : Nat := (challengePool sha256 limits now es n).shared.now

/-- Event `n` is a step of call `i`, from this place. -/
def ChallengeStep (n i : Nat) (raw : List UInt8) (call : ChallengeCall) : Prop :=
  (challengeProgram sha256 limits).StepsAt ⟨⟨HashMap.empty, now⟩, []⟩ es n i raw call

/-- Call `i` ends at event `n`, with this answer. -/
def ChallengeEnds (n i : Nat) (answer : ChallengeAnswer) : Prop :=
  ∃ raw, es[n]? = some (.step i raw) ∧
    (challengeMachine sha256 limits).out (challengePool sha256 limits now es n) (.step i raw) = some answer

/-- A call to `issue` stores the challenge at event `k`, and returns it. -/
def ChallengeIssuedAt (k : Nat) (challenge : String) (purpose : ChallengePurpose) (userId : Option String) : Prop :=
  ∃ j, (spawned es)[j]? = some (.issue purpose userId) ∧ ChallengeEnds sha256 limits now es k j (.issued challenge)

/-- A call to `verify` looks the challenge up at event `a`. -/
def AttemptedAt (a i : Nat) (challenge : String) : Prop :=
  ∃ raw purpose user, ChallengeStep sha256 limits now es a i raw (.verify challenge purpose user)

/-- Call `i`, to `verify`, ends at event `n` with success. -/
def VerifiedAt (n i : Nat) (challenge : String) (purpose : ChallengePurpose) (user : Option String) : Prop :=
  (spawned es)[i]? = some (.verify challenge purpose user) ∧ ChallengeEnds sha256 limits now es n i (.verified (.ok ()))

/-- No challenge is issued twice. -/
def FreshChallenges : Prop := ∀ k k' challenge purpose purpose' user user',
  ChallengeIssuedAt sha256 limits now es k challenge purpose user →
    ChallengeIssuedAt sha256 limits now es k' challenge purpose' user' → k = k'

/-- The calls begin at their first places. -/
def ChallengeCalls : ChallengeEvent → Prop
  | .spawn (.issue _ _) => True
  | .spawn (.verify _ _ _) => True
  | .spawn _ => False
  | .step _ _ => True
  | .env _ => True

/-- **Challenges are single use and bound.** -/
structure SingleUse : Prop where
  /-- A success is for a challenge as it was issued, within its time. -/
  bound : ∀ n i challenge purpose user, VerifiedAt sha256 limits now es n i challenge purpose user →
    ∃ k, k < n ∧ ChallengeIssuedAt sha256 limits now es k challenge purpose user ∧
      challengeClock sha256 limits now es n ≤ challengeClock sha256 limits now es k + limits.ttl
  /-- A challenge has one success. -/
  once : ∀ n n' i i' challenge purpose purpose' user user', VerifiedAt sha256 limits now es n i challenge purpose user →
    VerifiedAt sha256 limits now es n' i' challenge purpose' user' → n = n' ∧ i = i'
  /-- After an attempt on an issued challenge, whatever came of it, the challenge is not found. -/
  burnt : ∀ k a a' i i' challenge purpose user, ChallengeIssuedAt sha256 limits now es k challenge purpose user →
    k < a → AttemptedAt sha256 limits now es a i challenge → a < a' → AttemptedAt sha256 limits now es a' i' challenge →
      ChallengeEnds sha256 limits now es a' i' (.verified (.error .notFound))
  /-- The store stays within its capacity. -/
  capacity : ∀ n, (challengePool sha256 limits now es n).shared.entries.len ≤ max limits.cap 1

/-! ## What is known of the store and of a call -/

/-- The entry was issued before event `n`, and no call has looked it up since. -/
def Live (n : Nat) (challenge : String) (entry : ChallengeEntry) : Prop :=
  ∃ k, k < n ∧ ChallengeIssuedAt sha256 limits now es k challenge entry.purpose entry.userId ∧
    challengeClock sha256 limits now es k = entry.issuedAt ∧
    ∀ a i, k < a → a < n → ¬ AttemptedAt sha256 limits now es a i challenge

/-- The store keeps live entries, no more than its capacity. -/
def StoreLive (n : Nat) (w : ChallengeStore) : Prop :=
  (∀ challenge entry, w.entries.get? challenge = some entry → Live sha256 limits now es n challenge entry) ∧
    w.entries.len ≤ max limits.cap 1

/-- The call looked the challenge up at event `a`, found the entry live, and has taken no step since. -/
def TakenAt (n i a : Nat) (challenge : String) (entry : ChallengeEntry) : Prop :=
  a < n ∧ AttemptedAt sha256 limits now es a i challenge ∧ Live sha256 limits now es a challenge entry ∧
    ∀ q raw call, a < q → q < n → ¬ ChallengeStep sha256 limits now es q i raw call

/-- What a call has come through, at each of its places. -/
def CallLive (n i : Nat) : ChallengeCall → Prop
  | .issue purpose userId => (spawned es)[i]? = some (.issue purpose userId)
  | .draw purpose userId => (spawned es)[i]? = some (.issue purpose userId)
  | .insert purpose userId _ => (spawned es)[i]? = some (.issue purpose userId)
  | .verify challenge purpose user => (spawned es)[i]? = some (.verify challenge purpose user)
  | .check entry purpose user => ∃ a challenge, (spawned es)[i]? = some (.verify challenge purpose user) ∧
      TakenAt sha256 limits now es n i a challenge entry
  | .returned => True

end Definitions

section Facts
variable {sha256 : List UInt8 → List UInt8} {limits : ChallengeLimits} {now : Nat} {es : List ChallengeEvent} {n i : Nat}

/-- The challenge is issued at event `k`, as the entry says. -/
def ChallengeGiven (sha256 : List UInt8 → List UInt8) (limits : ChallengeLimits) (now : Nat) (es : List ChallengeEvent)
    (k : Nat) (challenge : String) (entry : ChallengeEntry) : Prop :=
  ChallengeIssuedAt sha256 limits now es k challenge entry.purpose entry.userId ∧
    challengeClock sha256 limits now es k = entry.issuedAt

theorem live_iff_unasked {challenge : String} {entry : ChallengeEntry} : Live sha256 limits now es n challenge entry ↔
    Unasked (ChallengeGiven sha256 limits now es) (AttemptedAt sha256 limits now es) n challenge entry := by
  unfold Live Unasked ChallengeGiven
  simp only [and_assoc]

theorem FreshChallenges.givenOnce (h : FreshChallenges sha256 limits now es) :
    GivenOnce (ChallengeGiven sha256 limits now es) := by
  rintro k k' challenge entry entry' ⟨hissued, -⟩ ⟨hissued', -⟩
  exact h k k' challenge _ _ _ _ hissued hissued'

theorem Live.later {challenge : String} {entry : ChallengeEntry} (h : Live sha256 limits now es n challenge entry)
    (hquiet : ∀ j, ¬ AttemptedAt sha256 limits now es n j challenge) :
    Live sha256 limits now es (n + 1) challenge entry :=
  live_iff_unasked.2 ((live_iff_unasked.1 h).later hquiet)

theorem CallLive.later {call : ChallengeCall} (h : CallLive sha256 limits now es n i call)
    (hquiet : ∀ raw call', ¬ ChallengeStep sha256 limits now es n i raw call') :
    CallLive sha256 limits now es (n + 1) i call := by
  cases call with
  | check entry purpose user =>
    obtain ⟨a, challenge, hspawned, ha, hattempted, hlive, hnone⟩ := h
    refine ⟨a, challenge, hspawned, Nat.lt_succ_of_lt ha, hattempted, hlive, fun q raw call haq hqn => ?_⟩
    rcases Nat.lt_succ_iff_lt_or_eq.1 hqn with hlt | rfl
    · exact hnone q raw call haq hlt
    · exact hquiet raw call
  | issue purpose userId => exact h
  | draw purpose userId => exact h
  | insert purpose userId challenge => exact h
  | verify challenge purpose user => exact h
  | returned => trivial

theorem StoreLive.later {w w' : ChallengeStore} (h : StoreLive sha256 limits now es n w)
    (hsub : ∀ challenge entry, w'.entries.get? challenge = some entry → w.entries.get? challenge = some entry)
    (hquiet : ∀ challenge entry j, w'.entries.get? challenge = some entry →
      ¬ AttemptedAt sha256 limits now es n j challenge) : StoreLive sha256 limits now es (n + 1) w' := by
  refine ⟨fun challenge entry hget => ?_, ?_⟩
  · have hlive := h.1 challenge entry (hsub challenge entry hget)
    exact hlive.later (fun j => hquiet challenge entry j hget)
  · have hlen := w'.entries.len_le_of_keys w.entries (fun challenge entry hget => ⟨entry, hsub challenge entry hget⟩)
    exact Nat.le_trans hlen h.2

theorem AttemptedAt.call_eq {raw : List UInt8} {call : ChallengeCall} {j : Nat} {challenge : String}
    (h : AttemptedAt sha256 limits now es n j challenge) (hstep : ChallengeStep sha256 limits now es n i raw call) :
    j = i ∧ ∃ purpose user, call = .verify challenge purpose user := by
  obtain ⟨raw', purpose, user, hstep'⟩ := h
  obtain ⟨rfl, -, rfl⟩ := hstep.unique hstep'
  exact ⟨rfl, purpose, user, rfl⟩

theorem not_attemptedAt {raw : List UInt8} {call : ChallengeCall} (hstep : ChallengeStep sha256 limits now es n i raw call)
    (hcall : ∀ challenge purpose user, call ≠ .verify challenge purpose user) (j : Nat) (challenge : String) :
    ¬ AttemptedAt sha256 limits now es n j challenge := by
  intro hattempted
  obtain ⟨-, purpose, user, heq⟩ := hattempted.call_eq hstep
  exact hcall challenge purpose user heq

theorem ChallengeStep.ends {raw : List UInt8} {call : ChallengeCall} (hstep : ChallengeStep sha256 limits now es n i raw call)
    {answer : ChallengeAnswer}
    (h : (call.next sha256 limits raw (challengePool sha256 limits now es n).shared).2.2 = some answer) :
    ChallengeEnds sha256 limits now es n i answer :=
  ⟨raw, hstep.1, hstep.out.trans h⟩

/-! ## One step -/

/-- **What a step makes of the store and of the call.** -/
theorem live_next {raw : List UInt8} {call : ChallengeCall} (hstep : ChallengeStep sha256 limits now es n i raw call)
    (hstore : StoreLive sha256 limits now es n (challengePool sha256 limits now es n).shared)
    (hcall : CallLive sha256 limits now es n i call) :
    StoreLive sha256 limits now es (n + 1) (call.next sha256 limits raw (challengePool sha256 limits now es n).shared).1 ∧
      CallLive sha256 limits now es (n + 1) i
        (call.next sha256 limits raw (challengePool sha256 limits now es n).shared).2.1 := by
  cases call with
  | issue purpose userId =>
    have hquiet := not_attemptedAt hstep nofun
    refine ⟨hstore.later (fun challenge entry hget => ?_) (fun challenge _ j _ => hquiet j challenge), hcall⟩
    exact ((HashMap.get?_retain_eq_some _ _ _ _).1 hget).1
  | draw purpose userId =>
    have hquiet := not_attemptedAt hstep nofun
    exact ⟨hstore.later (fun _ _ hget => hget) (fun challenge _ j _ => hquiet j challenge), hcall⟩
  | insert purpose userId challenge =>
    have hquiet := not_attemptedAt hstep nofun
    refine ⟨⟨fun challenge' entry hget => ?_, ?_⟩, trivial⟩
    · have hstored := (HashMap.get?_insert _ challenge challenge' _).symm.trans hget
      split at hstored
      · rename_i heq
        subst heq
        obtain rfl := Option.some.inj hstored
        have hissued : ChallengeIssuedAt sha256 limits now es n challenge' purpose userId := ⟨i, hcall, hstep.ends rfl⟩
        exact live_iff_unasked.2 (Lib.unasked_given ⟨hissued, rfl⟩)
      · have hlive := hstore.1 challenge' entry (get?_evictOldest hstored)
        exact hlive.later (fun j => hquiet j challenge')
    · have hroom := len_evictOldest limits.cap (challengePool sha256 limits now es n).shared.entries
      have hinsert := HashMap.len_insert_le (evictOldest limits.cap (challengePool sha256 limits now es n).shared.entries)
        challenge ⟨(challengePool sha256 limits now es n).shared.now, purpose, userId⟩
      have hlen := Nat.le_trans hinsert (Nat.succ_le_succ hroom)
      exact Nat.le_trans hlen (by omega)
  | verify challenge purpose user =>
    unfold ChallengeCall.next
    dsimp only
    split
    · rename_i entry hget
      refine ⟨hstore.later (fun challenge' entry' hget' => ?_) (fun challenge' entry' j hget' hattempted => ?_), n, challenge,
        hcall, Nat.lt_succ_self n, ⟨raw, purpose, user, hstep⟩, hstore.1 challenge entry hget, fun q _ _ hnq hqn => ?_⟩
      · rw [HashMap.get?_remove] at hget'
        split at hget'
        · cases hget'
        · exact hget'
      · obtain ⟨-, _, _, heq⟩ := hattempted.call_eq hstep
        obtain ⟨rfl, -, -⟩ := ChallengeCall.verify.inj heq
        rw [HashMap.get?_remove, if_pos rfl] at hget'
        cases hget'
      · omega
    · rename_i hnone
      refine ⟨hstore.later (fun _ _ hget => hget) (fun challenge' entry' j hget' hattempted => ?_), trivial⟩
      obtain ⟨-, _, _, heq⟩ := hattempted.call_eq hstep
      obtain ⟨rfl, -, -⟩ := ChallengeCall.verify.inj heq
      cases hnone.symm.trans hget'
  | check entry purpose user =>
    have hquiet := not_attemptedAt hstep nofun
    exact ⟨hstore.later (fun _ _ hget => hget) (fun challenge _ j _ => hquiet j challenge), trivial⟩
  | returned =>
    have hquiet := not_attemptedAt hstep nofun
    exact ⟨hstore.later (fun _ _ hget => hget) (fun challenge _ j _ => hquiet j challenge), trivial⟩

/-- **The facts of a run**: from an empty store, with calls that begin at their first places. -/
theorem live_at (hes : ∀ e ∈ es, ChallengeCalls e) (n : Nat) :
    PoolInv (StoreLive sha256 limits now es n) (fun i _ call => CallLive sha256 limits now es n i call)
      (challengePool sha256 limits now es n) := by
  have hdated : Lib.Dated (challengeProgram sha256 limits) ⟨HashMap.empty, now⟩ es (StoreLive sha256 limits now es)
      (CallLive sha256 limits now es) :=
    { start := ⟨fun challenge entry hget => (by cases hget), Nat.zero_le _⟩
      known := fun n i call hquiet h => h.later hquiet
      idle := fun n w hquiet h => h.later (fun _ _ hget => hget)
        (fun challenge _ j _ ⟨raw, purpose, user, hstep⟩ => hquiet j raw _ hstep)
      spawn := fun n i call he hspawned => by
        have hbegins := hes _ (List.mem_of_getElem? he)
        cases call <;> first | exact hspawned | exact hbegins.elim
      next := fun n i raw call hstep => live_next hstep
      env := fun n op w _ h => by
        cases op
        exact h }
  exact hdated.holds_at n

/-! ## What a call ends with -/

theorem ChallengeEnds.step {answer : ChallengeAnswer} (h : ChallengeEnds sha256 limits now es n i answer) :
    ∃ raw call, ChallengeStep sha256 limits now es n i raw call ∧
      (call.next sha256 limits raw (challengePool sha256 limits now es n).shared).2.2 = some answer := by
  obtain ⟨raw, he, hout⟩ := h
  obtain ⟨call, hstep, hanswer⟩ := Lib.Program.exists_stepsAt he hout nofun
  exact ⟨raw, call, hstep, hanswer⟩

/-- **A success is the check of an entry** that the call was the first to look up. -/
theorem VerifiedAt.taken (hes : ∀ e ∈ es, ChallengeCalls e) {challenge : String} {purpose : ChallengePurpose}
    {user : Option String} (h : VerifiedAt sha256 limits now es n i challenge purpose user) :
    ∃ a entry, TakenAt sha256 limits now es n i a challenge entry ∧
      checkEntry limits.ttl (challengeClock sha256 limits now es n) entry purpose user = .ok () ∧
      ∃ raw call, ChallengeStep sha256 limits now es n i raw call := by
  obtain ⟨hspawned, hends⟩ := h
  obtain ⟨raw, call, hstep, hanswer⟩ := hends.step
  have hcall := (live_at hes n).2 i call hstep.2
  cases call with
  | issue purpose userId => cases hanswer
  | draw purpose userId => cases hanswer
  | insert purpose userId challenge' => cases hanswer
  | verify challenge' purpose' user' =>
    simp only [ChallengeCall.next] at hanswer
    split at hanswer
    · cases hanswer
    · cases hanswer
  | check entry purpose' user' =>
    obtain ⟨a, challenge', hspawned', htaken⟩ := hcall
    obtain ⟨rfl, rfl, rfl⟩ := ChallengeCall.verify.inj (Option.some.inj (hspawned'.symm.trans hspawned))
    have hcheck := ChallengeAnswer.verified.inj (Option.some.inj hanswer)
    exact ⟨a, entry, htaken, hcheck, raw, _, hstep⟩
  | returned => cases hanswer

theorem ChallengeIssuedAt.step {challenge : String} {purpose : ChallengePurpose} {user : Option String}
    (h : ChallengeIssuedAt sha256 limits now es n challenge purpose user) :
    ∃ j raw purpose' user', ChallengeStep sha256 limits now es n j raw (.insert purpose' user' challenge) := by
  obtain ⟨j, -, hends⟩ := h
  obtain ⟨raw, call, hstep, hanswer⟩ := hends.step
  cases call with
  | issue purpose userId => cases hanswer
  | draw purpose userId => cases hanswer
  | insert purpose' user' challenge' =>
    obtain rfl := ChallengeAnswer.issued.inj (Option.some.inj hanswer)
    exact ⟨j, raw, purpose', user', hstep⟩
  | verify challenge' purpose' user' =>
    simp only [ChallengeCall.next] at hanswer
    split at hanswer
    · cases hanswer
    · cases hanswer
  | check entry purpose' user' => cases hanswer
  | returned => cases hanswer

/-- **Only the first look at an issued challenge finds it.** -/
theorem Live.first (hfresh : FreshChallenges sha256 limits now es) {challenge : String} {entry : ChallengeEntry}
    (h : Live sha256 limits now es n challenge entry) {k : Nat} {purpose : ChallengePurpose} {user : Option String}
    (hissued : ChallengeIssuedAt sha256 limits now es k challenge purpose user) {a j : Nat} (hka : k < a) (han : a < n) :
    ¬ AttemptedAt sha256 limits now es a j challenge := by
  have hgiven : ChallengeGiven sha256 limits now es k challenge ⟨challengeClock sha256 limits now es k, purpose, user⟩ :=
    ⟨hissued, rfl⟩
  exact (live_iff_unasked.1 h).untouched hfresh.givenOnce hgiven hka han

/-- An event has one caller. -/
theorem attemptedAt_unique (a j j' : Nat) (challenge : String) (h : AttemptedAt sha256 limits now es a j challenge)
    (h' : AttemptedAt sha256 limits now es a j' challenge) : j = j' := by
  obtain ⟨raw, purpose, user, hstep⟩ := h'
  exact (h.call_eq hstep).1

theorem TakenAt.eq (hfresh : FreshChallenges sha256 limits now es) {m j a b : Nat} {challenge : String}
    {entry entry' : ChallengeEntry} (h : TakenAt sha256 limits now es n i a challenge entry)
    (h' : TakenAt sha256 limits now es m j b challenge entry') : a = b ∧ i = j := by
  have hfirst : FirstAsk (ChallengeGiven sha256 limits now es) (AttemptedAt sha256 limits now es) a i challenge entry :=
    ⟨h.2.1, live_iff_unasked.1 h.2.2.1⟩
  have hfirst' : FirstAsk (ChallengeGiven sha256 limits now es) (AttemptedAt sha256 limits now es) b j challenge entry' :=
    ⟨h'.2.1, live_iff_unasked.1 h'.2.2.1⟩
  exact hfirst.eq hfresh.givenOnce attemptedAt_unique hfirst'

end Facts

/-- **Challenges are single use and bound**, in any run from an empty store. -/
theorem singleUse (sha256 : List UInt8 → List UInt8) (limits : ChallengeLimits) (now : Nat) (es : List ChallengeEvent)
    (hes : ∀ e ∈ es, ChallengeCalls e) (hfresh : FreshChallenges sha256 limits now es) :
    SingleUse sha256 limits now es where
  bound n i challenge purpose user hverified := by
    obtain ⟨a, entry, ⟨ha, -, ⟨k, hk, hissued, hclock, -⟩, -⟩, hcheck, -⟩ := hverified.taken hes
    obtain ⟨htime, rfl, rfl⟩ := checkEntry_eq_ok hcheck
    exact ⟨k, Nat.lt_trans hk ha, hissued, by omega⟩
  once n n' i i' challenge purpose purpose' user user' hverified hverified' := by
    obtain ⟨a, entry, htaken, -, raw, call, hstep⟩ := hverified.taken hes
    obtain ⟨a', entry', htaken', -, raw', call', hstep'⟩ := hverified'.taken hes
    obtain ⟨rfl, rfl⟩ := htaken.eq hfresh htaken'
    obtain ⟨ha, -, -, hnone⟩ := htaken
    obtain ⟨ha', -, -, hnone'⟩ := htaken'
    rcases Nat.lt_trichotomy n n' with hlt | rfl | hlt
    · exact absurd hstep (hnone' n raw call ha hlt)
    · exact ⟨rfl, rfl⟩
    · exact absurd hstep' (hnone n' raw' call' ha' hlt)
  burnt k a a' i i' challenge purpose user hissued hka hattempted haa' hattempted' := by
    obtain ⟨raw, purpose', user', hstep⟩ := hattempted'
    have hnone : (challengePool sha256 limits now es a').shared.entries.get? challenge = none := by
      cases hget : (challengePool sha256 limits now es a').shared.entries.get? challenge with
      | none => rfl
      | some entry =>
        have hlive := (live_at hes a').1.1 challenge entry hget
        exact absurd hattempted (hlive.first hfresh hissued hka haa')
    refine hstep.ends ?_
    simp only [ChallengeCall.next, hnone]
  capacity n := (live_at hes n).1.2

/-! ## A challenge that is verified, and tried again -/

/-- The random bytes of a test, and their digest. -/
def testRandom : List UInt8 := List.replicate 32 0

def testDigest : List UInt8 :=
  [0x66, 0x68, 0x7a, 0xad, 0xf8, 0x62, 0xbd, 0x77, 0x6c, 0x8f, 0xc1, 0x8b, 0x8e, 0x9f, 0x8e, 0x20, 0x08, 0x97, 0x14, 0x85,
    0x6e, 0xe2, 0x33, 0xb3, 0x90, 0x2a, 0x59, 0x1d, 0x0d, 0x5f, 0x29, 0x25]

def testChallenge : String := Utils.base64UrlEncode testDigest

/-- The challenge is issued, verified a second later, and presented again. -/
def replayedRun : List ChallengeEvent :=
  [.spawn (.issue .authenticate (some "user-1")), .step 0 [], .step 0 testRandom, .step 0 [], .env (.elapse (10 ^ 9)),
    .spawn (.verify testChallenge .authenticate (some "user-1")), .step 1 [], .step 1 [],
    .spawn (.verify testChallenge .authenticate (some "user-1")), .step 2 []]

example : VerifiedAt (fun _ => testDigest) .default 0 replayedRun 7 1 testChallenge .authenticate (some "user-1") :=
  ⟨rfl, [], rfl, by decide +kernel⟩

/-- Where the run inserts a challenge. -/
def replayedPlaces (n _i : Nat) : ChallengeCall → Bool
  | .insert _ _ _ => n == 3
  | _ => true

theorem replayed_insert {n i : Nat} {raw : List UInt8} {purpose : ChallengePurpose} {user : Option String}
    {challenge : String}
    (h : ChallengeStep (fun _ => testDigest) .default 0 replayedRun n i raw (.insert purpose user challenge)) : n = 3 := by
  have hplace : replayedPlaces n i (.insert purpose user challenge) = true := h.check (by decide +kernel)
  exact eq_of_beq hplace

theorem singleUse_replayed : SingleUse (fun _ => testDigest) .default 0 replayedRun := by
  refine singleUse _ _ _ _ ?_ ?_
  · intro e he
    simp only [replayedRun, List.mem_cons, List.not_mem_nil, or_false] at he
    rcases he with rfl | rfl | rfl | rfl | rfl | rfl | rfl | rfl | rfl | rfl <;> trivial
  · intro k k' challenge purpose purpose' user user' hissued hissued'
    obtain ⟨_, _, _, _, hstep⟩ := hissued.step
    obtain ⟨_, _, _, _, hstep'⟩ := hissued'.step
    rw [replayed_insert hstep, replayed_insert hstep']

end Webauthn
end Auth
end Kirino
