import Kirino.Lib.SingleUse
import Kirino.Auth.Pow
/-!
# PowRuns — a seed is accepted once, within its time

In every run a solution is accepted for a seed that was issued, once, within its time, and at the difficulty that the
caller of the verification asks for (`seedsAcceptedOnce`).  The store does not keep the difficulty of the issue, so that
another one may be asked for; and it may hold one seed more than its capacity (`crowdedRun_breaks`).
-/
namespace Kirino
namespace Auth
namespace Pow

open Lib (HashMap PoolInv Unasked FirstAsk GivenOnce)
open Lib.Program (spawned)

section Definitions
variable (crates : PowCrates) (limits : PowLimits) (now : Nat) (es : List PowEvent)

/-- The pool after the first `n` events of a run that begins with an empty store. -/
def powPool (n : Nat) : Lib.Pool PowStore PowCall :=
  (powMachine crates limits).run ⟨⟨HashMap.empty, now⟩, []⟩ (es.take n)

def powClock (n : Nat) : Nat := (powPool crates limits now es n).shared.now

/-- Event `n` is a step of call `i`, from this place. -/
def PowStep (n i : Nat) (raw : List UInt8) (call : PowCall) : Prop :=
  (powProgram crates limits).StepsAt ⟨⟨HashMap.empty, now⟩, []⟩ es n i raw call

/-- Call `i` ends at event `n`, with this answer. -/
def PowEnds (n i : Nat) (answer : PowAnswer) : Prop :=
  ∃ raw, es[n]? = some (.step i raw) ∧
    (powMachine crates limits).out (powPool crates limits now es n) (.step i raw) = some answer

/-- A call to `issue` stores the seed at event `k`, and returns it with the difficulty. -/
def SeedIssuedAt (k : Nat) (seed : String) (bits : UInt8) : Prop :=
  ∃ j, (spawned es)[j]? = some (.issue bits) ∧ PowEnds crates limits now es k j (.issued (.ok ⟨seed, bits⟩))

/-- A call to `verify` looks the seed up at event `a`. -/
def SeedAskedAt (a i : Nat) (seed : String) : Prop :=
  ∃ raw counter bits, PowStep crates limits now es a i raw (.verify seed counter bits)

/-- Call `i`, to `verify`, ends at event `n` with success. -/
def AcceptedAt (n i : Nat) (seed : String) (counter : UInt64) (bits : UInt8) : Prop :=
  (spawned es)[i]? = some (.verify seed counter bits) ∧ PowEnds crates limits now es n i (.verified (.ok ()))

/-- No seed is issued twice. -/
def FreshSeeds : Prop := ∀ k k' seed bits bits',
  SeedIssuedAt crates limits now es k seed bits → SeedIssuedAt crates limits now es k' seed bits' → k = k'

/-- The calls begin at their first places. -/
def PowCalls : PowEvent → Prop
  | .spawn (.issue _) => True
  | .spawn (.verify _ _ _) => True
  | .spawn _ => False
  | .step _ _ => True
  | .env _ => True

/-- The store stays within its capacity. -/
def WithinCapacity : Prop := ∀ n, (powPool crates limits now es n).shared.seeds.len ≤ limits.cap

/-- What is accepted meets the difficulty of the issue. -/
def MeetsIssued : Prop := ∀ n i seed counter bits k bits', AcceptedAt crates limits now es n i seed counter bits →
  SeedIssuedAt crates limits now es k seed bits' → MeetsDifficulty bits'.toNat (crates.solution seed counter)

/-- **A seed is accepted once**, within its time, and at the difficulty asked for. -/
structure SeedsAcceptedOnce : Prop where
  /-- A success is for a seed that was issued, within its time. -/
  timely : ∀ n i seed counter bits, AcceptedAt crates limits now es n i seed counter bits →
    ∃ k bits', k < n ∧ SeedIssuedAt crates limits now es k seed bits' ∧
      powClock crates limits now es n ≤ powClock crates limits now es k + limits.ttl
  /-- A seed has one success. -/
  once : ∀ n n' i i' seed counter counter' bits bits', AcceptedAt crates limits now es n i seed counter bits →
    AcceptedAt crates limits now es n' i' seed counter' bits' → n = n' ∧ i = i'
  /-- The solution meets the difficulty of the call. -/
  work : ∀ n i seed counter bits, AcceptedAt crates limits now es n i seed counter bits →
    MeetsDifficulty bits.toNat (crates.solution seed counter)
  /-- So it meets the difficulty of the issue, where the call asks for no less. -/
  bound : ∀ n i seed counter bits k bits', AcceptedAt crates limits now es n i seed counter bits →
    SeedIssuedAt crates limits now es k seed bits' → bits' ≤ bits →
      MeetsDifficulty bits'.toNat (crates.solution seed counter)

/-! ## What is known of the store and of a call -/

/-- The seed is issued at event `k`, when the entry says. -/
def SeedGiven (k : Nat) (seed : String) (entry : SeedEntry) : Prop :=
  (∃ bits, SeedIssuedAt crates limits now es k seed bits) ∧ powClock crates limits now es k = entry.issuedAt

/-- The store keeps seeds that no call has looked up since their issue. -/
def SeedsUnasked (n : Nat) (w : PowStore) : Prop := ∀ seed entry, w.seeds.get? seed = some entry →
  Unasked (SeedGiven crates limits now es) (SeedAskedAt crates limits now es) n seed entry

/-- What a call has come through, at each of its places. -/
def PowKnown (n i : Nat) : PowCall → Prop
  | .issue bits => (spawned es)[i]? = some (.issue bits)
  | .draw bits => (spawned es)[i]? = some (.issue bits)
  | .insert bits _ => (spawned es)[i]? = some (.issue bits)
  | .verify seed counter bits => (spawned es)[i]? = some (.verify seed counter bits)
  | .check entry seed counter bits => (spawned es)[i]? = some (.verify seed counter bits) ∧
      ∃ a, a < n ∧ FirstAsk (SeedGiven crates limits now es) (SeedAskedAt crates limits now es) a i seed entry ∧
        ∀ q raw call, a < q → q < n → ¬ PowStep crates limits now es q i raw call
  | .returned => True

end Definitions

section Facts
variable {crates : PowCrates} {limits : PowLimits} {now : Nat} {es : List PowEvent} {n i : Nat}

theorem FreshSeeds.givenOnce (h : FreshSeeds crates limits now es) : GivenOnce (SeedGiven crates limits now es) := by
  rintro k k' seed entry entry' ⟨⟨bits, hissued⟩, -⟩ ⟨⟨bits', hissued'⟩, -⟩
  exact h k k' seed bits bits' hissued hissued'

theorem SeedAskedAt.call_eq {raw : List UInt8} {call : PowCall} {j : Nat} {seed : String}
    (h : SeedAskedAt crates limits now es n j seed) (hstep : PowStep crates limits now es n i raw call) :
    j = i ∧ ∃ counter bits, call = .verify seed counter bits := by
  obtain ⟨raw', counter, bits, hstep'⟩ := h
  obtain ⟨rfl, -, rfl⟩ := hstep.unique hstep'
  exact ⟨rfl, counter, bits, rfl⟩

/-- An event has one caller. -/
theorem seedAskedAt_unique (a j j' : Nat) (seed : String) (h : SeedAskedAt crates limits now es a j seed)
    (h' : SeedAskedAt crates limits now es a j' seed) : j = j' := by
  obtain ⟨raw, counter, bits, hstep⟩ := h'
  exact (h.call_eq hstep).1

theorem not_seedAskedAt {raw : List UInt8} {call : PowCall} (hstep : PowStep crates limits now es n i raw call)
    (hcall : ∀ seed counter bits, call ≠ .verify seed counter bits) (j : Nat) (seed : String) :
    ¬ SeedAskedAt crates limits now es n j seed := by
  intro hasked
  obtain ⟨-, counter, bits, heq⟩ := hasked.call_eq hstep
  exact hcall seed counter bits heq

theorem PowStep.ends {raw : List UInt8} {call : PowCall} (hstep : PowStep crates limits now es n i raw call)
    {answer : PowAnswer} (h : (call.next crates limits raw (powPool crates limits now es n).shared).2.2 = some answer) :
    PowEnds crates limits now es n i answer :=
  ⟨raw, hstep.1, hstep.out.trans h⟩

theorem PowKnown.later {call : PowCall} (h : PowKnown crates limits now es n i call)
    (hquiet : ∀ raw call', ¬ PowStep crates limits now es n i raw call') :
    PowKnown crates limits now es (n + 1) i call := by
  cases call with
  | check entry seed counter bits =>
    obtain ⟨hspawned, a, ha, hfirst, hnone⟩ := h
    refine ⟨hspawned, a, Nat.lt_succ_of_lt ha, hfirst, fun q raw call haq hqn => ?_⟩
    rcases Nat.lt_succ_iff_lt_or_eq.1 hqn with hlt | rfl
    · exact hnone q raw call haq hlt
    · exact hquiet raw call
  | issue bits => exact h
  | draw bits => exact h
  | insert bits seed => exact h
  | verify seed counter bits => exact h
  | returned => trivial

theorem SeedsUnasked.later {w w' : PowStore} (h : SeedsUnasked crates limits now es n w)
    (hsub : ∀ seed entry, w'.seeds.get? seed = some entry → w.seeds.get? seed = some entry)
    (hquiet : ∀ seed entry j, w'.seeds.get? seed = some entry → ¬ SeedAskedAt crates limits now es n j seed) :
    SeedsUnasked crates limits now es (n + 1) w' :=
  fun seed entry hget => (h seed entry (hsub seed entry hget)).later (fun j => hquiet seed entry j hget)

/-! ## One step -/

/-- **What a step makes of the store and of the call.** -/
theorem unasked_next {raw : List UInt8} {call : PowCall} (hstep : PowStep crates limits now es n i raw call)
    (hstore : SeedsUnasked crates limits now es n (powPool crates limits now es n).shared)
    (hcall : PowKnown crates limits now es n i call) :
    SeedsUnasked crates limits now es (n + 1) (call.next crates limits raw (powPool crates limits now es n).shared).1 ∧
      PowKnown crates limits now es (n + 1) i
        (call.next crates limits raw (powPool crates limits now es n).shared).2.1 := by
  cases call with
  | issue bits =>
    have hquiet := not_seedAskedAt hstep (by simp)
    unfold PowCall.next
    dsimp only
    split
    · refine ⟨hstore.later (fun seed entry hget => ?_) (fun seed _ j _ => hquiet j seed), hcall⟩
      exact ((HashMap.get?_retain_eq_some _ _ _ _).1 hget).1
    · exact ⟨hstore.later (fun _ _ hget => hget) (fun seed _ j _ => hquiet j seed), trivial⟩
  | draw bits =>
    have hquiet := not_seedAskedAt hstep (by simp)
    exact ⟨hstore.later (fun _ _ hget => hget) (fun seed _ j _ => hquiet j seed), hcall⟩
  | insert bits seed =>
    have hquiet := not_seedAskedAt hstep (by simp)
    refine ⟨fun seed' entry hget => ?_, trivial⟩
    have hstored := (HashMap.get?_insert _ seed seed' _).symm.trans hget
    split at hstored
    · rename_i heq
      subst heq
      obtain rfl := Option.some.inj hstored
      exact Lib.unasked_given ⟨⟨bits, i, hcall, hstep.ends rfl⟩, rfl⟩
    · exact (hstore seed' entry (get?_keepNewest hstored)).later (fun j => hquiet j seed')
  | verify seed counter bits =>
    unfold PowCall.next
    dsimp only
    split
    · rename_i entry hget
      refine ⟨hstore.later (fun seed' entry' hget' => ?_) (fun seed' entry' j hget' hasked => ?_), hcall, n,
        Nat.lt_succ_self n, ⟨⟨raw, counter, bits, hstep⟩, hstore seed entry hget⟩, fun q _ _ hnq hqn => ?_⟩
      · rw [HashMap.get?_remove] at hget'
        split at hget'
        · cases hget'
        · exact hget'
      · obtain ⟨-, _, _, heq⟩ := hasked.call_eq hstep
        obtain ⟨rfl, -, -⟩ := PowCall.verify.inj heq
        rw [HashMap.get?_remove, if_pos rfl] at hget'
        cases hget'
      · omega
    · rename_i hnone
      refine ⟨hstore.later (fun _ _ hget => hget) (fun seed' entry' j hget' hasked => ?_), trivial⟩
      obtain ⟨-, _, _, heq⟩ := hasked.call_eq hstep
      obtain ⟨rfl, -, -⟩ := PowCall.verify.inj heq
      cases hnone.symm.trans hget'
  | check entry seed counter bits =>
    have hquiet := not_seedAskedAt hstep (by simp)
    exact ⟨hstore.later (fun _ _ hget => hget) (fun seed _ j _ => hquiet j seed), trivial⟩
  | returned =>
    have hquiet := not_seedAskedAt hstep (by simp)
    exact ⟨hstore.later (fun _ _ hget => hget) (fun seed _ j _ => hquiet j seed), trivial⟩

/-- **The facts of a run**: from an empty store, with calls that begin at their first places. -/
theorem unasked_at (hes : ∀ e ∈ es, PowCalls e) (n : Nat) :
    PoolInv (SeedsUnasked crates limits now es n) (fun i _ call => PowKnown crates limits now es n i call)
      (powPool crates limits now es n) := by
  have hdated : Lib.Dated (powProgram crates limits) ⟨HashMap.empty, now⟩ es (SeedsUnasked crates limits now es)
      (PowKnown crates limits now es) :=
    { start := fun seed entry hget => by cases hget
      known := fun n i call hquiet h => h.later hquiet
      idle := fun n w hquiet h => h.later (fun _ _ hget => hget)
        (fun seed _ j _ ⟨raw, counter, bits, hstep⟩ => hquiet j raw _ hstep)
      spawn := fun n i call he hspawned => by
        have hbegins := hes _ (List.mem_of_getElem? he)
        cases call <;> first | exact hspawned | exact hbegins.elim
      next := fun n i raw call hstep => unasked_next hstep
      env := fun n op w _ h => by
        cases op
        exact h }
  exact hdated.holds_at n

/-! ## What a call ends with -/

theorem PowEnds.step {answer : PowAnswer} (h : PowEnds crates limits now es n i answer) :
    ∃ raw call, PowStep crates limits now es n i raw call ∧
      (call.next crates limits raw (powPool crates limits now es n).shared).2.2 = some answer := by
  obtain ⟨raw, he, hout⟩ := h
  obtain ⟨call, hstep, hanswer⟩ := Lib.Program.exists_stepsAt he hout nofun
  exact ⟨raw, call, hstep, hanswer⟩

/-- **A success is the check of an entry** that the call was the first to look up. -/
theorem AcceptedAt.taken (hes : ∀ e ∈ es, PowCalls e) {seed : String} {counter : UInt64} {bits : UInt8}
    (h : AcceptedAt crates limits now es n i seed counter bits) :
    ∃ entry raw, PowStep crates limits now es n i raw (.check entry seed counter bits) ∧
      PowKnown crates limits now es n i (.check entry seed counter bits) ∧
      checkWork crates limits (powClock crates limits now es n) entry seed counter bits = .ok () := by
  obtain ⟨hspawned, hends⟩ := h
  obtain ⟨raw, call, hstep, hanswer⟩ := hends.step
  have hcall := (unasked_at hes n).2 i call hstep.2
  cases call with
  | issue bits' =>
    simp only [PowCall.next] at hanswer
    split at hanswer
    · cases hanswer
    · cases hanswer
  | draw bits' => cases hanswer
  | insert bits' seed' => cases hanswer
  | verify seed' counter' bits' =>
    simp only [PowCall.next] at hanswer
    split at hanswer
    · cases hanswer
    · cases hanswer
  | check entry seed' counter' bits' =>
    obtain ⟨rfl, rfl, rfl⟩ := PowCall.verify.inj (Option.some.inj (hcall.1.symm.trans hspawned))
    exact ⟨entry, raw, hstep, hcall, PowAnswer.verified.inj (Option.some.inj hanswer)⟩
  | returned => cases hanswer

end Facts

/-- **A seed is accepted once**, in any run from an empty store. -/
theorem seedsAcceptedOnce (crates : PowCrates) (limits : PowLimits) (now : Nat) (es : List PowEvent)
    (hes : ∀ e ∈ es, PowCalls e) (hfresh : FreshSeeds crates limits now es) :
    SeedsAcceptedOnce crates limits now es where
  timely n i seed counter bits haccepted := by
    obtain ⟨entry, raw, -, ⟨-, a, ha, ⟨-, k, hk, ⟨⟨bits', hissued⟩, hclock⟩, -⟩, -⟩, hcheck⟩ := haccepted.taken hes
    have htime := (checkWork_eq_ok hcheck).1
    exact ⟨k, bits', Nat.lt_trans hk ha, hissued, by omega⟩
  once n n' i i' seed counter counter' bits bits' haccepted haccepted' := by
    obtain ⟨entry, raw, hstep, ⟨-, a, ha, hfirst, hnone⟩, -⟩ := haccepted.taken hes
    obtain ⟨entry', raw', hstep', ⟨-, a', ha', hfirst', hnone'⟩, -⟩ := haccepted'.taken hes
    obtain ⟨rfl, rfl⟩ := hfirst.eq hfresh.givenOnce seedAskedAt_unique hfirst'
    rcases Nat.lt_trichotomy n n' with hlt | rfl | hlt
    · exact absurd hstep (hnone' n raw _ ha hlt)
    · exact ⟨rfl, rfl⟩
    · exact absurd hstep' (hnone n' raw' _ ha' hlt)
  work n i seed counter bits haccepted := by
    obtain ⟨entry, raw, -, -, hcheck⟩ := haccepted.taken hes
    exact (checkWork_eq_ok hcheck).2
  bound n i seed counter bits k bits' haccepted _ hle := by
    obtain ⟨entry, raw, -, -, hcheck⟩ := haccepted.taken hes
    have hwork := (le_leadingZeroBits _ _).2 (checkWork_eq_ok hcheck).2
    exact (le_leadingZeroBits _ _).1 (Nat.le_trans (UInt8.le_iff_toNat_le.1 hle) hwork)

/-! ## Two seeds where one is allowed, and less work than issued -/

def firstDigest : List UInt8 :=
  [0x66, 0x68, 0x7a, 0xad, 0xf8, 0x62, 0xbd, 0x77, 0x6c, 0x8f, 0xc1, 0x8b, 0x8e, 0x9f, 0x8e, 0x20, 0x08, 0x97, 0x14, 0x85,
    0x6e, 0xe2, 0x33, 0xb3, 0x90, 0x2a, 0x59, 0x1d, 0x0d, 0x5f, 0x29, 0x25]

def secondDigest : List UInt8 :=
  [0x72, 0xcd, 0x6e, 0x84, 0x22, 0xc4, 0x07, 0xfb, 0x6d, 0x09, 0x86, 0x90, 0xf1, 0x13, 0x0b, 0x7d, 0xed, 0x7e, 0xc2, 0xf7,
    0xf5, 0xe1, 0xd3, 0x0b, 0xd9, 0xd5, 0x21, 0xf0, 0x15, 0x36, 0x37, 0x93]

/-- The digest of the first seed and the counter 16. -/
def workDigest : List UInt8 :=
  [0x07, 0xc9, 0x9a, 0xc0, 0x60, 0x30, 0xe9, 0x04, 0xcd, 0x15, 0x3a, 0x73, 0x6b, 0xd5, 0x9d, 0xe5, 0x0f, 0x71, 0xad, 0x71,
    0xb5, 0x6f, 0x8e, 0x48, 0x6c, 0xae, 0x32, 0x12, 0x64, 0x1f, 0x88, 0x4f]

/-- The digests of thirty-two zeros, of thirty-two ones and of the solution. -/
def testCrates : PowCrates where
  sha256 bytes :=
    if bytes = List.replicate 32 0 then firstDigest
    else if bytes = List.replicate 32 1 then secondDigest
    else workDigest
  hexEncode bytes := String.ofList (bytes.flatMap (fun b => [Nat.digitChar (b.toNat / 16), Nat.digitChar (b.toNat % 16)]))

def firstSeed : String := testCrates.hexEncode firstDigest

def secondSeed : String := testCrates.hexEncode secondDigest

/-- Two seeds are issued at twelve bits where one is allowed, and the first is verified a second later at four bits. -/
def crowdedRun : List PowEvent :=
  [.spawn (.issue 12), .step 0 [], .step 0 (List.replicate 32 0), .step 0 [], .spawn (.issue 12), .step 1 [],
    .step 1 (List.replicate 32 1), .step 1 [], .env (.elapse (10 ^ 9)), .spawn (.verify firstSeed 16 4), .step 2 [], .step 2 []]

def crowdedLimits : PowLimits := { PowLimits.default with cap := 1 }

theorem crowdedRun_outs : (powMachine testCrates crowdedLimits).outs ⟨⟨HashMap.empty, 0⟩, []⟩ crowdedRun =
    [none, none, none, some (.issued (.ok ⟨firstSeed, 12⟩)), none, none, none, some (.issued (.ok ⟨secondSeed, 12⟩)), none,
      none, none, some (.verified (.ok ()))] := by
  decide +kernel

theorem crowdedRun_calls : ∀ e ∈ crowdedRun, PowCalls e := by
  intro e he
  simp only [crowdedRun, List.mem_cons, List.not_mem_nil, or_false] at he
  rcases he with rfl | rfl | rfl | rfl | rfl | rfl | rfl | rfl | rfl | rfl | rfl | rfl <;> trivial

theorem PowEnds.outs {crates : PowCrates} {limits : PowLimits} {now : Nat} {es : List PowEvent} {n i : Nat}
    {answer : PowAnswer} (h : PowEnds crates limits now es n i answer) :
    ((powMachine crates limits).outs ⟨⟨HashMap.empty, now⟩, []⟩ es)[n]? = some (some answer) := by
  obtain ⟨raw, he, hout⟩ := h
  rw [Lib.Machine.outs_getElem?, he]
  exact congrArg some hout

theorem crowded_issued {k : Nat} {seed : String} {bits : UInt8}
    (h : SeedIssuedAt testCrates crowdedLimits 0 crowdedRun k seed bits) :
    k = 3 ∧ seed = firstSeed ∨ k = 7 ∧ seed = secondSeed := by
  obtain ⟨j, -, hends⟩ := h
  have hout := hends.outs
  rw [crowdedRun_outs] at hout
  match k, hout with
  | 0, hout => cases hout
  | 1, hout => cases hout
  | 2, hout => cases hout
  | 3, hout => cases hout; exact Or.inl ⟨rfl, rfl⟩
  | 4, hout => cases hout
  | 5, hout => cases hout
  | 6, hout => cases hout
  | 7, hout => cases hout; exact Or.inr ⟨rfl, rfl⟩
  | 8, hout => cases hout
  | 9, hout => cases hout
  | 10, hout => cases hout
  | 11, hout => cases hout
  | _ + 12, hout => cases hout

theorem crowded_fresh : FreshSeeds testCrates crowdedLimits 0 crowdedRun := by
  intro k k' seed bits bits' h h'
  have hne : firstSeed ≠ secondSeed := by decide +kernel
  rcases crowded_issued h with ⟨rfl, rfl⟩ | ⟨rfl, rfl⟩ <;> rcases crowded_issued h' with ⟨rfl, hseed⟩ | ⟨rfl, hseed⟩
  · rfl
  · exact absurd hseed hne
  · exact absurd hseed.symm hne
  · rfl

theorem crowded_accepted : AcceptedAt testCrates crowdedLimits 0 crowdedRun 11 2 firstSeed 16 4 :=
  ⟨rfl, [], rfl, by decide +kernel⟩

/-- **The store holds two seeds, and five bits of work pass for twelve.** -/
theorem crowdedRun_breaks : (∀ e ∈ crowdedRun, PowCalls e) ∧ FreshSeeds testCrates crowdedLimits 0 crowdedRun ∧
    ¬ WithinCapacity testCrates crowdedLimits 0 crowdedRun ∧ ¬ MeetsIssued testCrates crowdedLimits 0 crowdedRun := by
  refine ⟨crowdedRun_calls, crowded_fresh, fun hcapacity => ?_, fun hwork => ?_⟩
  · have hlen : (powPool testCrates crowdedLimits 0 crowdedRun 8).shared.seeds.len = 2 := by decide +kernel
    have hle := hcapacity 8
    rw [hlen] at hle
    exact absurd hle (by decide)
  · have hissued : SeedIssuedAt testCrates crowdedLimits 0 crowdedRun 3 firstSeed 12 := ⟨0, rfl, [], rfl, by decide +kernel⟩
    have hmeets := (le_leadingZeroBits _ _).2 (hwork 11 2 firstSeed 16 4 3 12 crowded_accepted hissued)
    exact absurd hmeets (by decide +kernel)

theorem seedsAcceptedOnce_crowded : SeedsAcceptedOnce testCrates crowdedLimits 0 crowdedRun :=
  seedsAcceptedOnce _ _ _ _ crowdedRun_calls crowded_fresh

end Pow
end Auth
end Kirino
