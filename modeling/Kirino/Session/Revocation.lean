import Kirino.Lib.Machine
import Kirino.Lib.Records
import Kirino.Session.Manager
/-!
# Revocation — rotating refresh tokens (`packages/session/src/revocation.rs`, `manager.rs`)

The store records the sessions rotated or revoked with the instant, and rejects them inside a window of the refresh TTL
plus the verifier's leeway.  A record of an instant from a token's issue on outlives the token: what a call of the store
may forget is `Keeps`, the invariant of a rotated or revoked session is `Guarded`, and a guarded session's token is not
rotated (`refreshRotating_ok`).  In a build without overflow checks all this asks that the sums of clock, TTL and
leeway fit (`SumsFit`): a record whose sum wraps rejects nothing (`checkAndRevoke_of_wrapped`).
-/
namespace Kirino
namespace Session

open Lib (HashMap Machine diffI64 inI64 sumI64)

def revocationMaxEntries : Nat := 10000

structure RefreshRevocationStore where
  refreshTtlSecs : Int
  entries : HashMap String Int

section
variable (overflowChecks : Bool)

def recordEntry (entries : HashMap String Int) (sessionId : String) (now window : Int) :
    Option Unit × HashMap String Int :=
  entries.insertSweep revocationMaxEntries sessionId now (diffI64 overflowChecks now window)

/-- Whether a recorded instant rejects; no record does not. -/
def insideWindow (entry : Option Int) (now window : Int) : Option Bool :=
  match entry with
  | some ts => (sumI64 overflowChecks ts window).map (fun limit => decide (now ≤ limit))
  | none => some false

namespace RefreshRevocationStore

/-- The assertion on the TTL is one of debug builds. -/
def new (debugAssertions : Bool) (refreshTtlSecs : Int) : Option RefreshRevocationStore :=
  if debugAssertions = true ∧ ¬ refreshTtlSecs > 0 then none else some ⟨refreshTtlSecs, HashMap.empty⟩

def windowSecs (st : RefreshRevocationStore) : Option Int := sumI64 overflowChecks st.refreshTtlSecs verifyLeewaySecs

/-- Records under the lock; the rest of the answer is the caller's. -/
def record (st : RefreshRevocationStore) (sessionId : String) (now window : Int) :
    Option Unit × RefreshRevocationStore :=
  let r := recordEntry overflowChecks st.entries sessionId now window
  (r.1, { st with entries := r.2 })

def revoke (st : RefreshRevocationStore) (sessionId : String) (now : Int) : Option Unit × RefreshRevocationStore :=
  match st.windowSecs overflowChecks with
  | some window => st.record overflowChecks sessionId now window
  | none => (none, st)

/-- Whether this is the first use, and the store after the call. -/
def checkAndRevoke (st : RefreshRevocationStore) (sessionId : String) (now : Int) :
    Option Bool × RefreshRevocationStore :=
  match st.windowSecs overflowChecks with
  | some window =>
    match insideWindow overflowChecks (st.entries.get? sessionId) now window with
    | some true => (some false, st)
    | some false =>
      let r := st.record overflowChecks sessionId now window
      (r.1.map (fun _ => true), r.2)
    | none => (none, st)
  | none => (none, st)

def isRevoked (st : RefreshRevocationStore) (sessionId : String) (now : Int) : Option Bool :=
  (st.windowSecs overflowChecks).bind
    (fun window => insideWindow overflowChecks (st.entries.get? sessionId) now window)

def cleanup (st : RefreshRevocationStore) (now : Int) : Option Unit × RefreshRevocationStore :=
  match st.windowSecs overflowChecks with
  | some window =>
    let r := st.entries.tryRetain
      (fun _ ts => (sumI64 overflowChecks ts window).map (fun limit => decide (limit ≥ now)))
    (r.1, { st with entries := r.2 })
  | none => (none, st)

end RefreshRevocationStore

end

section
variable {L : Crates}

/-- The rotation of a refresh token, with one clock reading. -/
def TokenManager.refreshRotating (m : TokenManager L) (now : Nat) (ids : TokenManager.PairIds) (refreshToken : String)
    (revocations : RefreshRevocationStore) : SessionResult TokenPair × RefreshRevocationStore :=
  match m.verifyRefreshClaims now refreshToken with
  | .error e => (.error e, revocations)
  | .ok (userId, claims) =>
    match claims.sid with
    | none => (.error (invalid "refresh token has no session id"), revocations)
    | some sid =>
      match revocations.checkAndRevoke L.overflowChecks sid now with
      | (none, st) => (.error .panicked, st)
      | (some false, st) => (.error (.error .revoked), st)
      | (some true, st) => (m.issuePair now ids userId claims.username claims.roles, st)

/-! ## Histories -/

inductive RefreshCall where
  | refreshRotating (refreshToken : String) (ids : TokenManager.PairIds)
  | checkAndRevoke (sessionId : String)
  | revoke (sessionId : String)
  | isRevoked (sessionId : String)
  | cleanup

/-- A call and the clock reading it is made with. -/
structure RefreshEvent where
  now : Nat
  call : RefreshCall

inductive RefreshAnswer where
  | pair (result : SessionResult TokenPair)
  | verdict (answer : Option Bool)
  | done (answer : Option Unit)

def refreshAnswer (m : TokenManager L) (st : RefreshRevocationStore) (e : RefreshEvent) :
    RefreshAnswer × RefreshRevocationStore :=
  match e.call with
  | .refreshRotating token ids =>
    let r := m.refreshRotating e.now ids token st
    (.pair r.1, r.2)
  | .checkAndRevoke sid =>
    let r := st.checkAndRevoke L.overflowChecks sid e.now
    (.verdict r.1, r.2)
  | .revoke sid =>
    let r := st.revoke L.overflowChecks sid e.now
    (.done r.1, r.2)
  | .isRevoked sid => (.verdict (st.isRevoked L.overflowChecks sid e.now), st)
  | .cleanup =>
    let r := st.cleanup L.overflowChecks e.now
    (.done r.1, r.2)

def refreshMachine (m : TokenManager L) : Machine RefreshRevocationStore RefreshEvent RefreshAnswer where
  step st e := (refreshAnswer m st e).2
  out st e := (refreshAnswer m st e).1

/-- The event at the position rotates the token successfully. -/
def RotatedAt (m : TokenManager L) (st : RefreshRevocationStore) (es : List RefreshEvent) (token : String) (i : Nat) :
    Prop :=
  ∃ now ids pair, es[i]? = some ⟨now, .refreshRotating token ids⟩ ∧
    ((refreshMachine m).outs st es)[i]? = some (.pair (.ok pair))

/-- The token of the session is rotated at most once, and never after its session was revoked. -/
def RotatesOnce (m : TokenManager L) (st : RefreshRevocationStore) (es : List RefreshEvent) (sid token : String) : Prop :=
  (∀ i j, RotatedAt m st es token i → RotatedAt m st es token j → i = j) ∧
    ∀ i j now, es[i]? = some ⟨now, .revoke sid⟩ → i < j → ¬ RotatedAt m st es token j

end

/-! ## The sums of the window -/

/-- The build checks its sums, or that of the instant and the window fits. -/
def SumsFit (overflowChecks : Bool) (ttl now : Int) : Prop :=
  overflowChecks = true ∨ now + ttl + verifyLeewaySecs < 2 ^ 63

instance (overflowChecks : Bool) (ttl now : Int) : Decidable (SumsFit overflowChecks ttl now) :=
  inferInstanceAs (Decidable (_ ∨ _))

/-- The instants of a record that stands for as long as a token issued at `iat` verifies. -/
def Standing (overflowChecks : Bool) (ttl iat : Nat) (ts : Int) : Prop := iat ≤ ts ∧ SumsFit overflowChecks ttl ts

section
variable {overflowChecks : Bool} {st : RefreshRevocationStore} {sid : String} {ttl iat now : Nat} {ts window limit : Int}

theorem windowSecs_eq (httl : st.refreshTtlSecs = ttl) (hfits : SumsFit overflowChecks ttl now)
    (h : st.windowSecs overflowChecks = some window) : window = ttl + 60 := by
  unfold RefreshRevocationStore.windowSecs at h
  rw [httl] at h
  refine Lib.sumI64_eq_some (hfits.imp_right (fun hlt => decide_eq_true ?_)) h
  unfold verifyLeewaySecs at hlt
  exact ⟨by omega, by omega⟩

theorem limit_eq (hts : Standing overflowChecks ttl iat ts)
    (h : sumI64 overflowChecks ts ((ttl : Int) + 60) = some limit) : limit = ts + (ttl + 60) := by
  obtain ⟨hiat, hfits⟩ := hts
  refine Lib.sumI64_eq_some (hfits.imp_right (fun hlt => decide_eq_true ?_)) h
  unfold verifyLeewaySecs at hlt
  omega

theorem cutoff_eq (hfits : SumsFit overflowChecks ttl now)
    (h : diffI64 overflowChecks now ((ttl : Int) + 60) = some limit) : limit = now - (ttl + 60) := by
  refine Lib.diffI64_eq_some (hfits.imp_right (fun hlt => decide_eq_true ?_)) h
  unfold verifyLeewaySecs at hlt
  omega

/-! ## What a call may forget -/

/-- A call keeps the TTL, and every standing record from `iat` on until the window after `iat` is over. -/
def Keeps (overflowChecks : Bool) (ttl : Nat) (st st' : RefreshRevocationStore) (now : Nat) : Prop :=
  st'.refreshTtlSecs = st.refreshTtlSecs ∧ ∀ (sid : String) (iat : Nat), iat ≤ now →
    st.entries.Recorded sid (Standing overflowChecks ttl iat) →
      st'.entries.Recorded sid (Standing overflowChecks ttl iat) ∨ iat + ttl + 60 < now

theorem keeps_refl (st : RefreshRevocationStore) : Keeps overflowChecks ttl st st now := ⟨rfl, fun _ _ _ h => Or.inl h⟩

namespace RefreshRevocationStore

theorem keeps_record (hfits : SumsFit overflowChecks ttl now) (hw : window = ttl + 60) :
    Keeps overflowChecks ttl st (st.record overflowChecks sid now window).2 now := by
  subst hw
  refine ⟨rfl, fun k iat hiat h => ?_⟩
  refine HashMap.recorded_insertSweep (fun x limit _ hx _ hlimit hlt => ?_)
    (HashMap.recorded_insert (fun _ => ⟨Int.ofNat_le.2 hiat, hfits⟩) h)
  have := cutoff_eq hfits hlimit
  have := hx.1
  omega

theorem keeps_revoke (httl : st.refreshTtlSecs = ttl) (hfits : SumsFit overflowChecks ttl now) :
    Keeps overflowChecks ttl st (st.revoke overflowChecks sid now).2 now := by
  unfold revoke
  cases hw : st.windowSecs overflowChecks with
  | none => exact keeps_refl st
  | some window => exact keeps_record hfits (windowSecs_eq httl hfits hw)

/-- **First use is answered when no recorded instant rejects, and recorded.** -/
theorem checkAndRevoke_cases (overflowChecks : Bool) (st : RefreshRevocationStore) (sid : String) (now : Int) :
    (st.checkAndRevoke overflowChecks sid now).1 ≠ some true ∧ (st.checkAndRevoke overflowChecks sid now).2 = st ∨
    ∃ window, st.windowSecs overflowChecks = some window ∧
      insideWindow overflowChecks (st.entries.get? sid) now window = some false ∧
        (st.checkAndRevoke overflowChecks sid now).2 = (st.record overflowChecks sid now window).2 := by
  unfold checkAndRevoke
  cases hw : st.windowSecs overflowChecks with
  | none => exact Or.inl ⟨nofun, rfl⟩
  | some window =>
    dsimp only
    cases hin : insideWindow overflowChecks (st.entries.get? sid) now window with
    | none => exact Or.inl ⟨nofun, rfl⟩
    | some inside =>
      cases inside with
      | true => exact Or.inl ⟨nofun, rfl⟩
      | false => exact Or.inr ⟨window, rfl, hin, rfl⟩

theorem keeps_checkAndRevoke (httl : st.refreshTtlSecs = ttl) (hfits : SumsFit overflowChecks ttl now) :
    Keeps overflowChecks ttl st (st.checkAndRevoke overflowChecks sid now).2 now := by
  rcases checkAndRevoke_cases overflowChecks st sid now with ⟨-, hst⟩ | ⟨window, hw, -, hst⟩
  · rw [hst]
    exact keeps_refl st
  · rw [hst]
    exact keeps_record hfits (windowSecs_eq httl hfits hw)

theorem keeps_cleanup (httl : st.refreshTtlSecs = ttl) (hfits : SumsFit overflowChecks ttl now) :
    Keeps overflowChecks ttl st (st.cleanup overflowChecks now).2 now := by
  unfold cleanup
  cases hw : st.windowSecs overflowChecks with
  | none => exact keeps_refl st
  | some window =>
    obtain rfl := windowSecs_eq httl hfits hw
    refine ⟨rfl, fun k iat _ h => ?_⟩
    refine HashMap.recorded_tryRetain
      (f := fun _ ts => (sumI64 overflowChecks ts (ttl + 60)).map (fun limit => decide (limit ≥ (now : Int))))
      (fun x hx hdrop => ?_) h
    obtain ⟨limit, hlimit, hlt⟩ := Option.map_eq_some_iff.1 hdrop
    have := limit_eq hx hlimit
    have := of_decide_eq_false hlt
    have := hx.1
    omega

/-- **Where the sum of a record wraps, every use is the first** from the record's own instant on. -/
theorem checkAndRevoke_of_wrapped {now : Int} (hget : st.entries.get? sid = some ts) (hts : ts < 2 ^ 63)
    (httl : st.refreshTtlSecs < 2 ^ 63) (hover : 2 ^ 63 ≤ ts + st.refreshTtlSecs + verifyLeewaySecs) (hnow : ts ≤ now) :
    (st.checkAndRevoke false sid now).1 = some true := by
  unfold verifyLeewaySecs at hover
  have hlimit : (ts + (st.refreshTtlSecs + 60).bmod (2 ^ 64)).bmod (2 ^ 64) < ts := by
    rw [Int.add_bmod_bmod, Int.bmod_def]
    omega
  have hinside : insideWindow false (some ts) now ((st.refreshTtlSecs + 60).bmod (2 ^ 64)) = some false := by
    unfold insideWindow sumI64
    dsimp only
    rw [if_neg Bool.false_ne_true, Option.map_some, decide_eq_false (by omega)]
  have hrecord : (st.record false sid now ((st.refreshTtlSecs + 60).bmod (2 ^ 64))).1 = some () := by
    unfold record recordEntry HashMap.insertSweep diffI64
    dsimp only
    rw [if_neg Bool.false_ne_true]
    split <;> rfl
  unfold checkAndRevoke windowSecs sumI64 verifyLeewaySecs
  rw [if_neg Bool.false_ne_true, hget]
  dsimp only
  rw [hinside]
  dsimp only
  rw [hrecord]
  rfl

end RefreshRevocationStore

end

section
variable {L : Crates} {m : TokenManager L} {st : RefreshRevocationStore} {sid : String} {ttl iat : Nat}

/-- **A rotation asks the store about the session of the accepted claims.** -/
theorem refreshRotating_cases (m : TokenManager L) (now : Nat) (ids : TokenManager.PairIds) (token : String)
    (st : RefreshRevocationStore) :
    (∀ pair, (m.refreshRotating now ids token st).1 ≠ .ok pair) ∧ (m.refreshRotating now ids token st).2 = st ∨
    ∃ userId claims sid, m.verifyRefreshClaims now token = .ok (userId, claims) ∧ claims.sid = some sid ∧
      (m.refreshRotating now ids token st).2 = (st.checkAndRevoke L.overflowChecks sid now).2 ∧
      ∀ pair, (m.refreshRotating now ids token st).1 = .ok pair →
        (st.checkAndRevoke L.overflowChecks sid now).1 = some true := by
  unfold TokenManager.refreshRotating
  cases hv : m.verifyRefreshClaims now token with
  | error e => exact Or.inl ⟨nofun, rfl⟩
  | ok p =>
    obtain ⟨userId, claims⟩ := p
    dsimp only
    cases hsid : claims.sid with
    | none => exact Or.inl ⟨nofun, rfl⟩
    | some sid =>
      refine Or.inr ⟨userId, claims, sid, rfl, hsid, ?_⟩
      dsimp only
      cases hc : st.checkAndRevoke L.overflowChecks sid now with
      | mk answer st' =>
        cases answer with
        | none => exact ⟨rfl, nofun⟩
        | some first =>
          cases first with
          | false => exact ⟨rfl, nofun⟩
          | true => exact ⟨rfl, fun _ _ => rfl⟩

theorem keeps_refreshRotating {now : Nat} (httl : st.refreshTtlSecs = ttl) (hfits : SumsFit L.overflowChecks ttl now)
    (ids : TokenManager.PairIds) (token : String) :
    Keeps L.overflowChecks ttl st (m.refreshRotating now ids token st).2 now := by
  rcases refreshRotating_cases m now ids token st with ⟨-, hst⟩ | ⟨_, _, _, -, -, hst, -⟩
  · rw [hst]
    exact keeps_refl st
  · rw [hst]
    exact RefreshRevocationStore.keeps_checkAndRevoke httl hfits

/-- **Every call keeps the live records.** -/
theorem keeps_step (m : TokenManager L) {e : RefreshEvent} (httl : st.refreshTtlSecs = ttl)
    (hfits : SumsFit L.overflowChecks ttl e.now) :
    Keeps L.overflowChecks ttl st ((refreshMachine m).step st e) e.now := by
  obtain ⟨now, call⟩ := e
  cases call with
  | refreshRotating token ids => exact keeps_refreshRotating httl hfits ids token
  | checkAndRevoke sid => exact RefreshRevocationStore.keeps_checkAndRevoke httl hfits
  | revoke sid => exact RefreshRevocationStore.keeps_revoke httl hfits
  | isRevoked sid => exact keeps_refl st
  | cleanup => exact RefreshRevocationStore.keeps_cleanup httl hfits

/-! ## The invariant of a used session -/

/-- Every call panics, or the session is on record from the issue on, or the token issued then has stopped verifying. -/
def Guarded (overflowChecks : Bool) (sid : String) (ttl iat : Nat) (st : RefreshRevocationStore) (now : Nat) : Prop :=
  st.refreshTtlSecs = ttl ∧ (st.windowSecs overflowChecks = none ∨
    st.entries.Recorded sid (Standing overflowChecks ttl iat) ∨ iat + ttl + 60 < now)

theorem guarded_mono {overflowChecks : Bool} {now now' : Nat} (hle : now ≤ now')
    (h : Guarded overflowChecks sid ttl iat st now) : Guarded overflowChecks sid ttl iat st now' :=
  h.imp_right (Or.imp_right (Or.imp_right (fun hpast => by omega)))

/-- **A call keeps a session guarded.** -/
theorem guarded_step {e : RefreshEvent} (hiat : iat ≤ e.now) (hfits : SumsFit L.overflowChecks ttl e.now)
    (h : Guarded L.overflowChecks sid ttl iat st e.now) :
    Guarded L.overflowChecks sid ttl iat ((refreshMachine m).step st e) e.now := by
  obtain ⟨httl, h⟩ := h
  obtain ⟨hsame, hkeep⟩ := keeps_step m httl hfits
  refine ⟨hsame.trans httl, ?_⟩
  unfold RefreshRevocationStore.windowSecs at h ⊢
  rw [hsame]
  rcases h with hpanic | hrec | hpast
  · exact Or.inl hpanic
  · exact Or.inr (hkeep sid iat hiat hrec)
  · exact Or.inr (Or.inr hpast)

theorem guarded_of_record {now : Nat} {window : Int} (httl : st.refreshTtlSecs = ttl)
    (hfits : SumsFit L.overflowChecks ttl now) (hw : st.windowSecs L.overflowChecks = some window) (hiat : iat ≤ now) :
    Guarded L.overflowChecks sid ttl iat (st.record L.overflowChecks sid now window).2 now := by
  obtain rfl := windowSecs_eq httl hfits hw
  obtain ⟨ts, hts, rfl⟩ : (st.record L.overflowChecks sid now (ttl + 60)).2.entries.Recorded sid (fun ts => ts = now) := by
    refine HashMap.recorded_insertSweep_self (fun limit hlimit => ?_)
    have := cutoff_eq hfits hlimit
    omega
  exact ⟨httl, Or.inr (Or.inl ⟨now, hts, Int.ofNat_le.2 hiat, hfits⟩)⟩

theorem guarded_of_revoke {now : Nat} (httl : st.refreshTtlSecs = ttl) (hfits : SumsFit L.overflowChecks ttl now)
    (hiat : iat ≤ now) : Guarded L.overflowChecks sid ttl iat (st.revoke L.overflowChecks sid now).2 now := by
  unfold RefreshRevocationStore.revoke
  cases hw : st.windowSecs L.overflowChecks with
  | none => exact ⟨httl, Or.inl hw⟩
  | some window => exact guarded_of_record httl hfits hw hiat

/-- **A guarded session's token is not rotated**, and a rotation guards the session of its token. -/
theorem refreshRotating_ok {now : Nat} {ids : TokenManager.PairIds} {token : String} {pair : TokenPair}
    {claims : TokenClaims} (hL : L.Lawful) (httl : st.refreshTtlSecs = ttl) (hfits : SumsFit L.overflowChecks ttl now)
    (hiat : iat ≤ now) (hclaims : ∀ c, m.Payload token c → c = claims) (hsid : claims.sid = some sid)
    (hexp : claims.exp ≤ iat + ttl) (hok : (m.refreshRotating now ids token st).1 = .ok pair) :
    ¬ Guarded L.overflowChecks sid ttl iat st now ∧
      Guarded L.overflowChecks sid ttl iat (m.refreshRotating now ids token st).2 now := by
  rcases refreshRotating_cases m now ids token st with ⟨hno, -⟩ | ⟨userId, c, sid', hv, hsid', hst, hfirst⟩
  · exact absurd hok (hno pair)
  have hcheck := hfirst pair hok
  obtain ⟨hpay, hlive⟩ := TokenManager.payload_of_verifyRefreshClaims hL hv
  obtain rfl : c = claims := hclaims c hpay
  obtain rfl : sid' = sid := Option.some.inj (hsid'.symm.trans hsid)
  rcases RefreshRevocationStore.checkAndRevoke_cases L.overflowChecks st sid' now with ⟨hne, -⟩ | ⟨window, hw, hin, hrec⟩
  · exact absurd hcheck hne
  unfold validationLeeway at hlive
  refine ⟨?_, ?_⟩
  · rintro ⟨-, hpanic | ⟨ts, hts, hstanding⟩ | hpast⟩
    · rw [hw] at hpanic
      cases hpanic
    · obtain rfl := windowSecs_eq httl hfits hw
      unfold insideWindow at hin
      rw [hts] at hin
      obtain ⟨limit, hlimit, hlt⟩ := Option.map_eq_some_iff.1 hin
      have := limit_eq hstanding hlimit
      have := of_decide_eq_false hlt
      have := hstanding.1
      omega
    · omega
  · rw [hst, hrec]
    exact guarded_of_record httl hfits hw hiat

theorem ttl_run (m : TokenManager L) (es : List RefreshEvent) (httl : st.refreshTtlSecs = ttl)
    (hfits : ∀ e ∈ es, SumsFit L.overflowChecks ttl e.now) : ((refreshMachine m).run st es).refreshTtlSecs = ttl :=
  (refreshMachine m).run_invariant (fun _ e => SumsFit L.overflowChecks ttl e.now) (fun st' => st'.refreshTtlSecs = ttl)
    (fun _ _ h hfits => (keeps_step m h hfits).1.trans h) st es httl
    ((refreshMachine m).along_of_forall _ st es (fun _ => hfits))

theorem out_of_rotatedAt {es : List RefreshEvent} {token : String} {j : Nat} (h : RotatedAt m st es token j) :
    ∃ now ids pair, es[j]? = some ⟨now, .refreshRotating token ids⟩ ∧
      (m.refreshRotating now ids token ((refreshMachine m).run st (es.take j))).1 = .ok pair := by
  obtain ⟨now, ids, pair, he, ho⟩ := h
  exact ⟨now, ids, pair, he, RefreshAnswer.pair.inj ((refreshMachine m).out_of_getElem? he ho)⟩

/-- **A refresh token is rotated at most once, and never after its session was revoked**, in every history of calls
from its issue on whose clock does not go back and whose sums fit, when the store's TTL is the manager's. -/
theorem rotated_at_most_once (hL : L.Lawful) {ids : TokenManager.PairIds} {userId : L.Uuid} {username : String}
    {roles : List String} {pair : TokenPair} (hissue : m.issuePair iat ids userId username roles = .ok pair)
    (httl : st.refreshTtlSecs = m.config.refreshTtlSecs) (es : List RefreshEvent) (hiat : ∀ e ∈ es, iat ≤ e.now)
    (hclock : es.Pairwise (fun e f => e.now ≤ f.now))
    (hfits : ∀ e ∈ es, SumsFit L.overflowChecks m.config.refreshTtlSecs e.now) :
    RotatesOnce m st es ids.sid pair.refreshToken := by
  obtain ⟨claims, hsid, hexp, hclaims⟩ := TokenManager.refreshClaims_of_issuePair hL hissue
  have hrun : ∀ k, ((refreshMachine m).run st (es.take k)).refreshTtlSecs = m.config.refreshTtlSecs :=
    fun k => ttl_run m (es.take k) httl (fun e he => hfits e (List.mem_of_mem_take he))
  -- a session guarded after some event is guarded at every later rotation of its token
  have hlater : ∀ i j e, i < j → es[i]? = some e →
      Guarded L.overflowChecks ids.sid m.config.refreshTtlSecs iat
        ((refreshMachine m).step ((refreshMachine m).run st (es.take i)) e) e.now →
      ¬ RotatedAt m st es pair.refreshToken j := by
    intro i j e hij he hguard hrot
    obtain ⟨now, ids', pair', hf, hok⟩ := out_of_rotatedAt hrot
    have hmem := List.mem_of_getElem? hf
    have hguarded := (refreshMachine m).timed_invariant_after RefreshEvent.now
      (fun _ e => iat ≤ e.now ∧ SumsFit L.overflowChecks m.config.refreshTtlSecs e.now)
      (Guarded L.overflowChecks ids.sid m.config.refreshTtlSecs iat) (fun _ _ _ hle h => guarded_mono hle h)
      (fun _ _ h hP => guarded_step hP.1 hP.2 h) st es hclock
      ((refreshMachine m).along_of_forall _ st es (fun _ e he => ⟨hiat e he, hfits e he⟩)) i j e _ hij he hf hguard
    exact (refreshRotating_ok hL (hrun j) (hfits _ hmem) (hiat _ hmem) hclaims hsid hexp hok).1 hguarded
  have hrotated : ∀ i j, i < j → RotatedAt m st es pair.refreshToken i → ¬ RotatedAt m st es pair.refreshToken j := by
    intro i j hij hrot
    obtain ⟨now, ids', pair', he, hok⟩ := out_of_rotatedAt hrot
    have hmem := List.mem_of_getElem? he
    exact hlater i j _ hij he
      (refreshRotating_ok hL (hrun i) (hfits _ hmem) (hiat _ hmem) hclaims hsid hexp hok).2
  refine ⟨fun i j hi hj => ?_, fun i j now he hij => ?_⟩
  · rcases Nat.lt_trichotomy i j with hlt | heq | hgt
    · exact absurd hj (hrotated i j hlt hi)
    · exact heq
    · exact absurd hi (hrotated j i hgt hj)
  · have hmem := List.mem_of_getElem? he
    exact hlater i j _ hij he (guarded_of_revoke (hrun i) (hfits _ hmem) (hiat _ hmem))

end

/-! ## A rotation and its replay -/

def aliceId : String := "018f6b3c-7e1a-7000-8000-000000000001"

def aliceClaims (now ttl : Nat) (sid jti : String) (tokenType : TokenType) : TokenClaims :=
  { sub := aliceId, username := "alice", tokenType, iat := now, exp := now + ttl, iss := "kirino", jti, sid := some sid,
    roles := ["viewer"], userId := none, tenantId := none, relayId := none, workspaceId := none, permissions := [],
    aud := none }

/-- The tokens of two pairs, the second issued for the first's refresh token. -/
def rotationTokens : List (String × TokenClaims) :=
  [("access-1", aliceClaims 1000 900 "sid-1" "jti-1" .access), ("refresh-1", aliceClaims 1000 3600 "sid-1" "jti-2" .refresh),
    ("access-2", aliceClaims 1500 900 "sid-2" "jti-3" .access), ("refresh-2", aliceClaims 1500 3600 "sid-2" "jti-4" .refresh)]

def rotationHistory : List RefreshEvent :=
  [⟨1500, .refreshRotating "refresh-1" ⟨"sid-2", "jti-3", "jti-4"⟩⟩, ⟨1600, .cleanup⟩, ⟨1700, .revoke "sid-1"⟩,
    ⟨4600, .refreshRotating "refresh-1" ⟨"sid-3", "jti-5", "jti-6"⟩⟩]

theorem alice_issued :
    (tableManager rotationTokens).issuePair 1000 ⟨"sid-1", "jti-1", "jti-2"⟩ aliceId "alice" ["viewer"] =
      .ok ⟨"access-1", "refresh-1", "Bearer", 900⟩ := rfl

theorem rotated_at_most_once_alice : RefreshRevocationStore.new true 3600 = some ⟨3600, HashMap.empty⟩ ∧
    RotatedAt (tableManager rotationTokens) ⟨3600, HashMap.empty⟩ rotationHistory "refresh-1" 0 ∧
      RotatesOnce (tableManager rotationTokens) ⟨3600, HashMap.empty⟩ rotationHistory "sid-1" "refresh-1" :=
  ⟨rfl, ⟨1500, ⟨"sid-2", "jti-3", "jti-4"⟩, ⟨"access-2", "refresh-2", "Bearer", 900⟩, rfl, rfl⟩,
    rotated_at_most_once (tableCrates_lawful true rotationTokens) alice_issued rfl rotationHistory (by decide) (by decide)
      (by decide)⟩

/-- The longest TTL of a store. -/
def longestRefreshTtl : Nat := 2 ^ 63 - 1

/-- The tokens of three pairs of the longest TTL, the later ones issued for the first's refresh token. -/
def wrappedTokens : List (String × TokenClaims) :=
  [("access-1", aliceClaims 1700000000 900 "sid-1" "jti-1" .access),
    ("refresh-1", aliceClaims 1700000000 longestRefreshTtl "sid-1" "jti-2" .refresh),
    ("access-2", aliceClaims 1700000020 900 "sid-2" "jti-3" .access),
    ("refresh-2", aliceClaims 1700000020 longestRefreshTtl "sid-2" "jti-4" .refresh),
    ("access-3", aliceClaims 1700000030 900 "sid-3" "jti-5" .access),
    ("refresh-3", aliceClaims 1700000030 longestRefreshTtl "sid-3" "jti-6" .refresh)]

/-- A manager of a build without overflow checks. -/
def wrappedManager : TokenManager (tableCrates false wrappedTokens) :=
  ⟨{ testConfig with refreshTtlSecs := longestRefreshTtl }, .sharedSecret "secret" "secret"⟩

def wrappedHistory : List RefreshEvent :=
  [⟨1700000010, .revoke "sid-1"⟩, ⟨1700000020, .refreshRotating "refresh-1" ⟨"sid-2", "jti-3", "jti-4"⟩⟩,
    ⟨1700000030, .refreshRotating "refresh-1" ⟨"sid-3", "jti-5", "jti-6"⟩⟩]

/-- Where the sums wrap, a token is rotated after its session was revoked, and rotated again. -/
theorem rotated_twice_wrapped : (tableCrates false wrappedTokens).Lawful ∧
    (∀ e ∈ wrappedHistory, 1700000000 ≤ e.now) ∧ wrappedHistory.Pairwise (fun e f => e.now ≤ f.now) ∧
    wrappedManager.issuePair 1700000000 ⟨"sid-1", "jti-1", "jti-2"⟩ aliceId "alice" ["viewer"] =
      .ok ⟨"access-1", "refresh-1", "Bearer", 900⟩ ∧
    RefreshRevocationStore.new true longestRefreshTtl = some ⟨longestRefreshTtl, HashMap.empty⟩ ∧
    RotatedAt wrappedManager ⟨longestRefreshTtl, HashMap.empty⟩ wrappedHistory "refresh-1" 1 ∧
    RotatedAt wrappedManager ⟨longestRefreshTtl, HashMap.empty⟩ wrappedHistory "refresh-1" 2 ∧
    ¬ RotatesOnce wrappedManager ⟨longestRefreshTtl, HashMap.empty⟩ wrappedHistory "sid-1" "refresh-1" := by
  have hfirst : RotatedAt wrappedManager ⟨longestRefreshTtl, HashMap.empty⟩ wrappedHistory "refresh-1" 1 :=
    ⟨1700000020, ⟨"sid-2", "jti-3", "jti-4"⟩, ⟨"access-2", "refresh-2", "Bearer", 900⟩, rfl, rfl⟩
  have hsecond : RotatedAt wrappedManager ⟨longestRefreshTtl, HashMap.empty⟩ wrappedHistory "refresh-1" 2 :=
    ⟨1700000030, ⟨"sid-3", "jti-5", "jti-6"⟩, ⟨"access-3", "refresh-3", "Bearer", 900⟩, rfl, rfl⟩
  exact ⟨tableCrates_lawful false wrappedTokens, by decide, by decide, rfl, rfl, hfirst, hsecond,
    fun h => absurd (h.1 1 2 hfirst hsecond) (by decide)⟩

end Session
end Kirino
