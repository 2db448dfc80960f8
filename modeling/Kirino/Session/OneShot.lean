import Kirino.Lib.Machine
import Kirino.Lib.Records
import Kirino.Session.Manager
/-!
# OneShot — one-shot tokens and their replays (`packages/session/src/one_shot.rs`, `examples/axum_ws_one_shot.rs`)

The store records the token ids presented so far with their expiries, and sweeps the ones it takes for expired: at most
once a minute, and whenever it is at its ceiling.  A sweep counts an id as expired from its `exp` on, the verifier
accepts its token for a leeway longer.  The invariant of a token reported fresh (`Recorded`) is that its id is on record
with at least its own expiry, or the token is past its leeway; the sweeps that keep it are the condition `SafeMark`.
-/
namespace Kirino
namespace Session

open Lib (HashMap Machine asI64)

def defaultMaxJtis : Nat := 1000000

def pruneIntervalSecs : Int := 60

/-- `poisoned` is the state of the lock after a panic of its holder. -/
structure OneShotStore where
  used : HashMap String Int
  lastPrune : Nat
  maxJtis : Nat
  poisoned : Bool

namespace OneShotStore

/-- A sweep runs at the call: one is due, or the store is at its ceiling. -/
def Sweeps (st : OneShotStore) (now : Nat) : Prop :=
  ¬ ((now : Int) - st.lastPrune < pruneIntervalSecs) ∨ st.maxJtis ≤ st.used.len

instance (st : OneShotStore) (now : Nat) : Decidable (st.Sweeps now) := inferInstanceAs (Decidable (_ ∨ _))

def withMaxJtis (maxJtis : Nat) : OneShotStore := ⟨HashMap.empty, 0, max maxJtis 1, false⟩

def new : OneShotStore := withMaxJtis defaultMaxJtis

/-- The sweep of both prune paths. -/
def sweep (map : HashMap String Int) (now : Nat) : HashMap String Int := map.retain (fun _ exp => decide (exp > now))

def pruneDue (st : OneShotStore) (now : Nat) : Bool := decide (¬ ((now : Int) - st.lastPrune < pruneIntervalSecs))

/-- The lock is held, so the exchange of the prune instant always succeeds. -/
def maybePrune (st : OneShotStore) (now : Nat) : OneShotStore :=
  if st.pruneDue now then { st with used := sweep st.used now, lastPrune := now } else st

/-- Whether the id was already present, and the store after the call. -/
def checkAndMark (st : OneShotStore) (now : Nat) (jti : String) (expiry : Int) : Bool × OneShotStore :=
  if st.poisoned then (true, st)
  else
    let st := st.maybePrune now
    let full := decide (st.used.len ≥ st.maxJtis)
    let map := if full then sweep st.used now else st.used
    if full && decide (map.len ≥ st.maxJtis) then (true, { st with used := map })
    else ((map.get? jti).isSome, { st with used := map.insert jti expiry })

/-- The map a call marks in: the store's, less what a sweep of this call takes for expired. -/
def marked (st : OneShotStore) (now : Nat) : HashMap String Int :=
  let used := (st.maybePrune now).used
  if (st.maybePrune now).maxJtis ≤ used.len then sweep used now else used

theorem recorded_marked {st : OneShotStore} {now : Nat} {k : String} {floor : Int} {P : Prop}
    (hsweeps : st.Sweeps now → ∀ x, st.used.get? k = some x → floor ≤ x → x ≤ now → P)
    (h : st.used.RecordedFrom k floor) : (st.marked now).RecordedFrom k floor ∨ P := by
  have hsweep : ∀ (map : HashMap String Int), (∀ x, map.get? k = some x → st.used.get? k = some x) → st.Sweeps now →
      map.RecordedFrom k floor → (sweep map now).RecordedFrom k floor ∨ P := by
    intro map hmap hs hm
    refine HashMap.recorded_retain (fun x hx hle hdrop => hsweeps hs x (hmap x hx) hle ?_) hm
    exact Int.not_lt.1 (of_decide_eq_false hdrop)
  unfold marked maybePrune pruneDue
  by_cases hdue : (now : Int) - st.lastPrune < pruneIntervalSecs
  · simp only [hdue, not_true_eq_false, decide_false, Bool.false_eq_true, if_false]
    by_cases hfull : st.maxJtis ≤ st.used.len
    · rw [if_pos hfull]
      exact hsweep st.used (fun _ hx => hx) (Or.inr hfull) h
    · rw [if_neg hfull]
      exact Or.inl h
  · simp only [hdue, not_false_eq_true, decide_true, if_true]
    rcases hsweep st.used (fun _ hx => hx) (Or.inl hdue) h with h' | hP
    · split
      · exact hsweep (sweep st.used now) (fun x hx => ((HashMap.get?_retain_eq_some _ _ _ _).1 hx).1) (Or.inl hdue) h'
      · exact Or.inl h'
    · exact Or.inr hP

/-- **A call answers "replay" and marks nothing, or answers whether the id is in the map it marks it in.** -/
theorem checkAndMark_cases (st : OneShotStore) (now : Nat) (jti : String) (expiry : Int) :
    (st.checkAndMark now jti expiry).1 = true ∧ (st.checkAndMark now jti expiry).2 = st ∨
    (st.checkAndMark now jti expiry).1 = true ∧ (st.checkAndMark now jti expiry).2.used = st.marked now ∨
    (st.checkAndMark now jti expiry).1 = ((st.marked now).get? jti).isSome ∧
      (st.checkAndMark now jti expiry).2.used = (st.marked now).insert jti expiry := by
  unfold checkAndMark
  by_cases hp : st.poisoned = true
  · rw [if_pos hp]
    exact Or.inl ⟨rfl, rfl⟩
  · rw [if_neg hp]
    dsimp only
    have hmarked : (if decide ((st.maybePrune now).used.len ≥ (st.maybePrune now).maxJtis) = true
        then sweep (st.maybePrune now).used now else (st.maybePrune now).used) = st.marked now := by
      unfold marked
      simp only [decide_eq_true_eq, ge_iff_le]
    rw [hmarked]
    split
    · exact Or.inr (Or.inl ⟨rfl, rfl⟩)
    · exact Or.inr (Or.inr ⟨rfl, rfl⟩)

end OneShotStore

/-- A presentation of a token: the instant its verification reads, and the later one its marking reads. -/
structure WsRequest where
  token : String
  verifyAt : Nat
  markAt : Nat
deriving DecidableEq, Repr

inductive WsOutcome where
  | unauthorized (text : String)
  | upgraded (username : String)
deriving DecidableEq, Repr

section
variable {L : Crates}

/-- The handler's answer, and the store after it. -/
def wsHandler (m : TokenManager L) (st : OneShotStore) (r : WsRequest) : WsOutcome × OneShotStore :=
  match m.verify r.verifyAt r.token with
  | .error _ => (.unauthorized "invalid token", st)
  | .ok claims =>
    match st.checkAndMark r.markAt claims.jti (asI64 claims.exp) with
    | (true, st) => (.unauthorized "token already used", st)
    | (false, st) => (.upgraded claims.username, st)

def wsMachine (m : TokenManager L) : Machine OneShotStore WsRequest WsOutcome where
  step st r := (wsHandler m st r).2
  out st r := (wsHandler m st r).1

/-- What keeps replays out at a step: the presented expiry is that of a signed 64-bit clock and does not fall behind the
one on record for its id, and no sweep of the step drops an id within the leeway after its expiry. -/
def SafeMark (m : TokenManager L) (st : OneShotStore) (r : WsRequest) : Prop :=
  ∀ c, m.verify r.verifyAt r.token = .ok c →
    c.exp < 2 ^ 63 ∧
    (∀ x, st.used.get? c.jti = some x → x ≤ c.exp) ∧
    (st.Sweeps r.markAt → ∀ jti x, st.used.get? jti = some x → x ≤ r.markAt → x + validationLeeway < r.markAt)

/-- The id is on record with at least the claims' own expiry, or the claims are past the leeway. -/
def Recorded (c : TokenClaims) (st : OneShotStore) (now : Nat) : Prop :=
  st.used.RecordedFrom c.jti c.exp ∨ c.exp + validationLeeway < now

section Step
variable {m : TokenManager L} {st : OneShotStore} {r : WsRequest} {c : TokenClaims}

/-- **The handler marks the claims of a token that verifies**, and upgrades when their id was not marked. -/
theorem wsHandler_cases (m : TokenManager L) (st : OneShotStore) (r : WsRequest) :
    (∀ u, (wsHandler m st r).1 ≠ .upgraded u) ∧ (wsHandler m st r).2 = st ∨
    ∃ c, m.verify r.verifyAt r.token = .ok c ∧
      (wsHandler m st r).2 = (st.checkAndMark r.markAt c.jti (asI64 c.exp)).2 ∧
      ∀ u, (wsHandler m st r).1 = .upgraded u → (st.checkAndMark r.markAt c.jti (asI64 c.exp)).1 = false := by
  unfold wsHandler
  cases hv : m.verify r.verifyAt r.token with
  | error e => exact Or.inl ⟨nofun, rfl⟩
  | ok c =>
    refine Or.inr ⟨c, rfl, ?_⟩
    dsimp only
    cases hmark : st.checkAndMark r.markAt c.jti (asI64 c.exp) with
    | mk replay st' =>
      cases replay with
      | true => exact ⟨rfl, nofun⟩
      | false => exact ⟨rfl, fun _ _ => rfl⟩

/-- A safe step's sweeps keep the record of a token within its leeway. -/
theorem recorded_of_safeMark {c' : TokenClaims} (hsafe : SafeMark m st r) (hv : m.verify r.verifyAt r.token = .ok c')
    (h : st.used.RecordedFrom c.jti c.exp) :
    (st.marked r.markAt).RecordedFrom c.jti c.exp ∨ c.exp + validationLeeway < r.markAt := by
  refine OneShotStore.recorded_marked (fun hsweeps x hx hle hnow => ?_) h
  have := (hsafe c' hv).2.2 hsweeps c.jti x hx hnow
  omega

/-- **A safe step keeps the record.** -/
theorem recorded_step (hsafe : SafeMark m st r) (h : Recorded c st r.markAt) :
    Recorded c (wsHandler m st r).2 r.markAt := by
  rcases h with hrec | hpast
  · rcases wsHandler_cases m st r with ⟨-, hst⟩ | ⟨c', hv, hst, -⟩
    · rw [hst]
      exact Or.inl hrec
    · rw [hst]
      obtain ⟨hrange, hlater, -⟩ := hsafe c' hv
      have hkept := recorded_of_safeMark hsafe hv hrec
      rcases OneShotStore.checkAndMark_cases st r.markAt c'.jti (asI64 c'.exp) with ⟨-, hsame⟩ | ⟨-, hused⟩ | ⟨-, hused⟩
      · rw [hsame]
        exact Or.inl hrec
      · unfold Recorded
        rw [hused]
        exact hkept
      · unfold Recorded
        rw [hused, Lib.asI64_of_lt hrange]
        refine hkept.imp_left (HashMap.recorded_insert (fun hjti => ?_))
        obtain ⟨x, hx, hle⟩ := hrec
        have := hlater x (hjti ▸ hx)
        omega
  · exact Or.inr hpast

theorem upgraded_spec {u : String} (hsafe : SafeMark m st r) (hup : (wsHandler m st r).1 = .upgraded u) :
    ∃ c, m.verify r.verifyAt r.token = .ok c ∧ Recorded c (wsHandler m st r).2 r.markAt ∧
      (Recorded c st r.markAt → c.exp + validationLeeway < r.markAt) := by
  rcases wsHandler_cases m st r with ⟨hno, -⟩ | ⟨c, hv, hst, hfresh⟩
  · exact absurd hup (hno u)
  have hfalse := hfresh u hup
  obtain ⟨hrange, -, -⟩ := hsafe c hv
  refine ⟨c, hv, ?_⟩
  rcases OneShotStore.checkAndMark_cases st r.markAt c.jti (asI64 c.exp) with ⟨htrue, -⟩ | ⟨htrue, -⟩ | ⟨hsome, hused⟩
  · rw [htrue] at hfalse
    cases hfalse
  · rw [htrue] at hfalse
    cases hfalse
  · refine ⟨?_, fun hrec => ?_⟩
    · unfold Recorded
      rw [hst, hused, Lib.asI64_of_lt hrange]
      exact Or.inl (HashMap.recorded_insert_self (Int.le_refl _))
    · rcases hrec with hrec | hpast
      · refine (recorded_of_safeMark hsafe hv hrec).resolve_left (fun ⟨x, hx, _⟩ => ?_)
        rw [hsome, hx] at hfalse
        cases hfalse
      · exact hpast

end Step

/-- **A token reported fresh is reported fresh again past its verifiable life only**, when every step is safe. -/
theorem fresh_again_past_leeway (m : TokenManager L) (hL : L.Lawful) (st : OneShotStore) (rs : List WsRequest)
    (hclock : rs.Pairwise (fun r r' => r.markAt ≤ r'.markAt)) (hsafe : (wsMachine m).Along (SafeMark m) st rs)
    (i j : Nat) (r r' : WsRequest) (c : TokenClaims) (u u' : String) (hij : i < j) (hr : rs[i]? = some r)
    (hr' : rs[j]? = some r') (htoken : r.token = r'.token) (hv : m.verify r'.verifyAt r'.token = .ok c)
    (hup : ((wsMachine m).outs st rs)[i]? = some (.upgraded u))
    (hup' : ((wsMachine m).outs st rs)[j]? = some (.upgraded u')) : c.exp + validationLeeway < r'.markAt := by
  obtain ⟨c₀, hv₀, hrec₀, -⟩ := upgraded_spec ((wsMachine m).along_getElem? _ st rs hsafe i r hr)
    ((wsMachine m).out_of_getElem? hr hup)
  obtain ⟨c₁, hv₁, -, hpast⟩ := upgraded_spec ((wsMachine m).along_getElem? _ st rs hsafe j r' hr')
    ((wsMachine m).out_of_getElem? hr' hup')
  -- the two presentations are of one token, so of the same claims
  obtain rfl : c₁ = c := Except.ok.inj (hv₁.symm.trans hv)
  have hpay₀ := (TokenManager.payload_of_verify hL hv₀).1
  rw [htoken] at hpay₀
  obtain rfl : c₀ = c₁ := TokenManager.payload_unique hL hpay₀ (TokenManager.payload_of_verify hL hv).1
  exact hpast ((wsMachine m).timed_invariant_after WsRequest.markAt (SafeMark m) (Recorded c₀)
    (fun _ _ _ hle h => h.imp_right (fun hpast => by omega)) (fun _ _ h hP => recorded_step hP h)
    st rs hclock hsafe i j r r' hij hr hr' hrec₀)

theorem safeMark_of_verify {m : TokenManager L} {st : OneShotStore} {r : WsRequest} {c : TokenClaims}
    (hv : m.verify r.verifyAt r.token = .ok c) (hrange : c.exp < 2 ^ 63)
    (hlater : ∀ e ∈ st.used.entries, e.1 = c.jti → e.2 ≤ c.exp)
    (hsweeps : ∀ e ∈ st.used.entries, e.2 ≤ r.markAt → e.2 + validationLeeway < r.markAt) : SafeMark m st r := by
  intro c' hv'
  obtain rfl : c = c' := Except.ok.inj (hv.symm.trans hv')
  refine ⟨hrange, fun x hx => ?_, fun _ jti x hx => ?_⟩
  · exact hlater _ ((HashMap.get?_eq_some_iff _ _ _).1 hx) rfl
  · exact hsweeps _ ((HashMap.get?_eq_some_iff _ _ _).1 hx)

end

def wsClaims (username jti : String) (exp : Nat) : TokenClaims :=
  { sub := "018f6b3c-7e1a-7000-8000-000000000001", username, tokenType := .access, iat := exp - 30, exp, iss := "kirino",
    jti, sid := none, roles := [], userId := none, tenantId := none, relayId := none, workspaceId := none,
    permissions := [], aud := none }

def wsTokens : List (String × TokenClaims) :=
  [("token-a", wsClaims "alice" "jti-a" 1000), ("token-b", wsClaims "bob" "jti-b" 1040)]

/-- Verified at the end of its leeway and marked after it, a token is fresh a second time. -/
theorem fresh_again_past_leeway_alice :
    (wsMachine (tableManager wsTokens)).outs OneShotStore.new [⟨"token-a", 980, 980⟩, ⟨"token-a", 1060, 1200⟩] =
        [.upgraded "alice", .upgraded "alice"] ∧
      (wsClaims "alice" "jti-a" 1000).exp + validationLeeway < 1200 :=
  ⟨by decide,
    fresh_again_past_leeway (tableManager wsTokens) (tableCrates_lawful true wsTokens) OneShotStore.new
      [⟨"token-a", 980, 980⟩, ⟨"token-a", 1060, 1200⟩] (by decide)
      ⟨safeMark_of_verify (c := wsClaims "alice" "jti-a" 1000) rfl (by decide) (by decide) (by decide),
        safeMark_of_verify (c := wsClaims "alice" "jti-a" 1000) rfl (by decide) (by decide) (by decide), trivial⟩
      0 1 ⟨"token-a", 980, 980⟩ ⟨"token-a", 1060, 1200⟩ (wsClaims "alice" "jti-a" 1000) "alice" "alice" (by decide)
      rfl rfl rfl rfl (by decide) (by decide)⟩

/-- Another token's presentation sweeps the id of a token that still verifies. -/
theorem fresh_twice_within_leeway :
    (wsMachine (tableManager wsTokens)).outs OneShotStore.new
        [⟨"token-a", 980, 980⟩, ⟨"token-b", 1040, 1040⟩, ⟨"token-a", 1050, 1050⟩] =
      [.upgraded "alice", .upgraded "bob", .upgraded "alice"] := by
  decide

end Session
end Kirino
