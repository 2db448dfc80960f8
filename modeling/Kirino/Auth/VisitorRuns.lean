import Kirino.Auth.Visitor
/-!
# VisitorRuns — tickets do not outlive their principal

A call that verifies or renews a ticket has passed the gate: the ticket was issued, was not revoked when the call asked,
and its window since the issue is not over (`ticketsLapse`).  A renewed token is a copy of the token that was presented,
so that no chain of renewals leaves the window, and one revocation ends them all.
-/
namespace Kirino
namespace Auth

open Lib (HashMap PoolInv nanosPerSec)
open Lib.Program (spawned StepsAt)
open Rbac (Identity)

section Definitions
variable {U : Type} [DecidableEq U] (C : TicketCrates U) (config : VisitorTicketConfig) (now : Nat)
variable (es : List (TicketEvent U))

/-- The pool after the first `n` events of a run that begins with an empty store. -/
def ticketPool (n : Nat) : Lib.Pool (TicketWorld U) (TicketCall U) :=
  (ticketMachine C config).run ⟨.new U now, []⟩ (es.take n)

def ticketClock (n : Nat) : Nat := (ticketPool C config now es n).shared.now

/-- Event `n` is a step of call `i`, from this place. -/
def TicketStep (n i : Nat) (drawn : U) (call : TicketCall U) : Prop :=
  (ticketProgram C config).StepsAt ⟨.new U now, []⟩ es n i drawn call

/-- Call `i` ends at event `n`, with this answer. -/
def TicketEnds (n i : Nat) (answer : TicketAnswer U) : Prop :=
  ∃ drawn, es[n]? = some (.step i drawn) ∧
    (ticketMachine C config).out (ticketPool C config now es n) (.step i drawn) = some answer

/-- The ticket was issued: a call read the clock at event `a`, and created the principal at event `k`. -/
def IssuedAt (a k : Nat) (id : U) : Prop :=
  ∃ j drawn expiresAt, a < k ∧ TicketStep C config now es a j drawn .issue ∧
    TicketStep C config now es k j id (.createTemporary expiresAt)

def RevokedAt (r : Nat) (id : U) : Prop := ∃ j drawn, TicketStep C config now es r j drawn (.revoke id)

/-- No UUID is drawn twice. -/
def FreshIds : Prop := ∀ k k' j j' id expiresAt expiresAt', TicketStep C config now es k j id (.createTemporary expiresAt) →
  TicketStep C config now es k' j' id (.createTemporary expiresAt') → k = k'

/-- A token that decodes under the manager's secret was minted by the manager before. -/
def Unforgeable : Prop := ∀ d i drawn way token claims, TicketStep C config now es d i drawn (.present way token) →
  decodeToken C config way token (ticketClock C config now es d) = .ok claims →
    ∃ m j ticket, m < d ∧ TicketEnds C config now es m j (.issued ticket) ∧ ticket.token = token

/-- The calls begin at their first places. -/
def TicketCalls : TicketEvent U → Prop
  | .spawn .issue => True
  | .spawn (.present _ _) => True
  | .spawn (.revoke _) => True
  | .spawn _ => False
  | .step _ _ => True
  | .env _ => True

/-- Any decoding of the token gives this ticket. -/
def CarriesTicket (token : String) (id : U) : Prop :=
  ∀ validation k instant claims, C.decode validation token k instant = .ok claims → claims.ticketId C = .ok id

/-- A token of the ticket's issue, or of a chain of renewals from it. -/
inductive Copy : Nat → String → U → Prop where
  | issued {n i ticket} : (spawned es)[i]? = some .issue → TicketEnds C config now es n i (.issued ticket) →
      Copy n ticket.token ticket.ticketId
  | renewed {m n i token ticket} : Copy m token ticket.ticketId → m < n →
      (spawned es)[i]? = some (.present .renew token) → TicketEnds C config now es n i (.issued ticket) →
      Copy n ticket.token ticket.ticketId

/-- Call `i` passes the gate at event `g`. -/
def AdmitsAt (g i : Nat) (way : Presentation) (id : U) : Prop :=
  ∃ drawn claims owner expiresAt, TicketStep C config now es g i drawn (.checkExpiry way claims id (.temporary owner expiresAt)) ∧
    ticketClock C config now es g ≤ expiresAt

/-- No revocation of the ticket comes before a step of call `i` that comes before event `n`. -/
def FoundUnrevoked (n i : Nat) (id : U) : Prop :=
  ∃ c drawn call, c < n ∧ TicketStep C config now es c i drawn call ∧ ∀ r, r < c → ¬ RevokedAt C config now es r id

/-- **A ticket that passes the gate is alive**: its only issue was before and its window is not over, and it was not revoked
when the call asked. -/
structure Alive (g i : Nat) (id : U) : Prop where
  within : ∃ a k, k < g ∧ IssuedAt C config now es a k id ∧
    (ticketClock C config now es g : Int) ≤ ticketClock C config now es a + config.inactivityWindow
  once : ∀ a a' k k', IssuedAt C config now es a k id → IssuedAt C config now es a' k' id → k = k'
  unrevoked : FoundUnrevoked C config now es g i id

/-- **Visitor tickets do not outlive their principal.** -/
structure TicketsLapse : Prop where
  /-- A verification that succeeds passes the gate as it ends. -/
  verified : ∀ n i ticket, TicketEnds C config now es n i (.verified ticket) →
    AdmitsAt C config now es n i .verify ticket.ticketId
  /-- A renewal that succeeds has passed the gate, with no more to do than to mint. -/
  renewed : ∀ n i token ticket, (spawned es)[i]? = some (.present .renew token) →
    TicketEnds C config now es n i (.issued ticket) → CarriesTicket C token ticket.ticketId ∧
      CarriesTicket C ticket.token ticket.ticketId ∧
      ∃ g, g < n ∧ AdmitsAt C config now es g i .renew ticket.ticketId ∧
        ∀ q drawn call, g < q → q < n → ¬ TicketStep C config now es q i drawn call
  /-- What passes the gate is alive, and a copy of the token of its issue. -/
  alive : ∀ g i way id, AdmitsAt C config now es g i way id → Alive C config now es g i id ∧
    ∃ m token, m < g ∧ (spawned es)[i]? = some (.present way token) ∧ Copy C config now es m token id
  /-- After a revocation no copy is accepted. -/
  ended : ∀ r id m token g i way way' id', RevokedAt C config now es r id → Copy C config now es m token id →
    (spawned es)[i]? = some (.present way' token) → (∀ q drawn call, TicketStep C config now es q i drawn call → r < q) →
      ¬ AdmitsAt C config now es g i way id'

/-! ## What is known of a call -/

/-- The identity is as it was created at a time before event `n`. -/
def CreatedBefore (n : Nat) (id : U) (identity : Identity U) : Prop :=
  ∃ a k expiresAt, identity = .temporary id expiresAt ∧ k < n ∧ IssuedAt C config now es a k id ∧
    (expiresAt : Int) = ticketClock C config now es a + config.inactivityWindow

/-- The call has decoded the token that was presented, before event `n`. -/
def DecodedBefore (n i : Nat) (way : Presentation) (claims : VisitorTicketClaims) (id : U) : Prop :=
  ∃ d drawn token, d < n ∧ TicketStep C config now es d i drawn (.present way token) ∧
    (spawned es)[i]? = some (.present way token) ∧
    decodeToken C config way token (ticketClock C config now es d) = .ok claims ∧ claims.ticketId C = .ok id

/-- The store keeps what was created and what was revoked. -/
def StoreFacts (n : Nat) (w : TicketWorld U) : Prop :=
  (∀ id identity, w.store.identities.get? id = some identity → CreatedBefore C config now es n id identity) ∧
    ∀ r id, r < n → RevokedAt C config now es r id → id ∈ w.store.revoked

/-- What a call has come through, at each of its places. -/
def CallFacts (n i : Nat) : TicketCall U → Prop
  | .issue => (spawned es)[i]? = some .issue
  | .createTemporary expiresAt => (spawned es)[i]? = some .issue ∧ ∃ a drawn, a < n ∧
      TicketStep C config now es a i drawn .issue ∧
      (expiresAt : Int) = ticketClock C config now es a + config.inactivityWindow
  | .present way token => (spawned es)[i]? = some (.present way token)
  | .getTemporary way claims id => DecodedBefore C config now es n i way claims id
  | .isRevoked way claims id identity =>
    DecodedBefore C config now es n i way claims id ∧ CreatedBefore C config now es n id identity
  | .checkExpiry way claims id identity =>
    DecodedBefore C config now es n i way claims id ∧ CreatedBefore C config now es n id identity ∧
      FoundUnrevoked C config now es n i id
  | .mint id _ => (spawned es)[i]? = some .issue ∨ (∃ claims, DecodedBefore C config now es n i .renew claims id) ∧
      ∃ g, g < n ∧ AdmitsAt C config now es g i .renew id ∧
        ∀ q drawn call, g < q → q < n → ¬ TicketStep C config now es q i drawn call
  | .revoke _ => True
  | .returned => True

end Definitions

section Facts
variable {U : Type} [DecidableEq U] {C : TicketCrates U} {config : VisitorTicketConfig} {now : Nat}
variable {es : List (TicketEvent U)} {n i : Nat}

theorem CreatedBefore.mono {id : U} {identity : Identity U} (h : CreatedBefore C config now es n id identity) {m : Nat}
    (hnm : n ≤ m) : CreatedBefore C config now es m id identity := by
  obtain ⟨a, k, expiresAt, hid, hk, hissued⟩ := h
  exact ⟨a, k, expiresAt, hid, Nat.lt_of_lt_of_le hk hnm, hissued⟩

theorem DecodedBefore.mono {way : Presentation} {claims : VisitorTicketClaims} {id : U}
    (h : DecodedBefore C config now es n i way claims id) {m : Nat} (hnm : n ≤ m) :
    DecodedBefore C config now es m i way claims id := by
  obtain ⟨d, drawn, token, hd, hdecoded⟩ := h
  exact ⟨d, drawn, token, Nat.lt_of_lt_of_le hd hnm, hdecoded⟩

theorem FoundUnrevoked.mono {id : U} (h : FoundUnrevoked C config now es n i id) {m : Nat} (hnm : n ≤ m) :
    FoundUnrevoked C config now es m i id := by
  obtain ⟨c, drawn, call, hc, hfound⟩ := h
  exact ⟨c, drawn, call, Nat.lt_of_lt_of_le hc hnm, hfound⟩

theorem CallFacts.later {call : TicketCall U} (h : CallFacts C config now es n i call)
    (hquiet : ∀ drawn call', ¬ TicketStep C config now es n i drawn call') : CallFacts C config now es (n + 1) i call := by
  have hle := Nat.le_succ n
  cases call with
  | createTemporary expiresAt =>
    obtain ⟨hspawned, a, drawn, ha, hread⟩ := h
    exact ⟨hspawned, a, drawn, Nat.lt_succ_of_lt ha, hread⟩
  | getTemporary way claims id => exact DecodedBefore.mono h hle
  | isRevoked way claims id identity => exact ⟨h.1.mono hle, h.2.mono hle⟩
  | checkExpiry way claims id identity => exact ⟨h.1.mono hle, h.2.1.mono hle, h.2.2.mono hle⟩
  | mint id identity =>
    rcases h with hspawned | ⟨⟨claims, hdecoded⟩, g, hg, hadmits, hnone⟩
    · exact Or.inl hspawned
    · refine Or.inr ⟨⟨claims, hdecoded.mono hle⟩, g, Nat.lt_succ_of_lt hg, hadmits, fun q drawn call hgq hqn => ?_⟩
      rcases Nat.lt_succ_iff_lt_or_eq.1 hqn with hlt | rfl
      · exact hnone q drawn call hgq hlt
      · exact hquiet drawn call
  | issue => exact h
  | present way token => exact h
  | revoke id => trivial
  | returned => trivial

theorem StoreFacts.later {w : TicketWorld U} (h : StoreFacts C config now es n w)
    (hquiet : ∀ id, ¬ RevokedAt C config now es n id) : StoreFacts C config now es (n + 1) w := by
  refine ⟨fun id identity hget => (h.1 id identity hget).mono (Nat.le_succ n), fun r id hr hrevoked => ?_⟩
  rcases Nat.lt_succ_iff_lt_or_eq.1 hr with hlt | rfl
  · exact h.2 r id hlt hrevoked
  · exact absurd hrevoked (hquiet id)

theorem not_revokedAt {drawn : U} {call : TicketCall U} (hstep : TicketStep C config now es n i drawn call)
    (hcall : ∀ id, call ≠ .revoke id) (id : U) : ¬ RevokedAt C config now es n id := by
  rintro ⟨j, drawn', hstep'⟩
  obtain ⟨-, -, heq⟩ := hstep.unique hstep'
  exact hcall id heq

omit [DecidableEq U] in
theorem ticketId_of_admitClaims {claims : VisitorTicketClaims} {id : U} (h : admitClaims C claims = .ok id) :
    claims.ticketId C = .ok id := by
  unfold admitClaims at h
  split at h
  · cases h
  · exact h

/-! ## One step -/

/-- **What a step makes of the store and of the call.** -/
theorem facts_next {drawn : U} {call : TicketCall U} (hstep : TicketStep C config now es n i drawn call)
    (hstore : StoreFacts C config now es n (ticketPool C config now es n).shared)
    (hcall : CallFacts C config now es n i call) :
    StoreFacts C config now es (n + 1) (call.next C config drawn (ticketPool C config now es n).shared).1 ∧
      CallFacts C config now es (n + 1) i (call.next C config drawn (ticketPool C config now es n).shared).2.1 := by
  have hle := Nat.le_succ n
  cases call with
  | issue =>
    have hlater := hstore.later (not_revokedAt hstep (by simp))
    unfold TicketCall.next
    dsimp only
    split
    · rename_i expiresAt hsum
      exact ⟨hlater, hcall, n, drawn, Nat.lt_succ_self n, hstep, addDuration_eq_some hsum⟩
    · exact ⟨hlater, trivial⟩
  | createTemporary expiresAt =>
    obtain ⟨hspawned, a, drawn', ha, hread, hexpires⟩ := hcall
    have hlater := hstore.later (not_revokedAt hstep (by simp))
    refine ⟨⟨fun id identity hget => ?_, hlater.2⟩, Or.inl hspawned⟩
    have hstored := (HashMap.get?_insert _ drawn id (Identity.temporary drawn expiresAt)).symm.trans hget
    split at hstored
    · rename_i hid
      subst hid
      obtain rfl := Option.some.inj hstored
      exact ⟨a, n, expiresAt, rfl, Nat.lt_succ_self n, ⟨i, drawn', expiresAt, ha, hread, hstep⟩, hexpires⟩
    · exact hlater.1 id identity hstored
  | present way token =>
    have hlater := hstore.later (not_revokedAt hstep (by simp))
    unfold TicketCall.next
    dsimp only
    split
    · rename_i claims ticketId hok
      obtain ⟨claims', hdecoded, hmap⟩ := Lib.ok_of_bind hok
      obtain ⟨ticketId', hadmits, hpair⟩ := Lib.ok_of_map hmap
      obtain ⟨rfl, rfl⟩ := Prod.mk.inj hpair
      exact ⟨hlater, n, drawn, token, Nat.lt_succ_self n, hstep, hcall, hdecoded, ticketId_of_admitClaims hadmits⟩
    · exact ⟨hlater, trivial⟩
  | getTemporary way claims id =>
    have hlater := hstore.later (not_revokedAt hstep (by simp))
    unfold TicketCall.next
    dsimp only
    split
    · rename_i identity hget
      exact ⟨hlater, DecodedBefore.mono hcall hle, hlater.1 id identity hget⟩
    · exact ⟨hlater, trivial⟩
  | isRevoked way claims id identity =>
    have hlater := hstore.later (not_revokedAt hstep (by simp))
    unfold TicketCall.next
    dsimp only
    split
    · exact ⟨hlater, trivial⟩
    · rename_i hunrevoked
      refine ⟨hlater, hcall.1.mono hle, hcall.2.mono hle, n, drawn, _, Nat.lt_succ_self n, hstep, fun r hr hrevoked => ?_⟩
      exact hunrevoked (hstore.2 r id hr hrevoked)
  | checkExpiry way claims id identity =>
    have hlater := hstore.later (not_revokedAt hstep (by simp))
    unfold TicketCall.next
    dsimp only
    split
    · rename_i owner expiresAt
      split
      · exact ⟨hlater, trivial⟩
      · rename_i hexpires
        split
        · exact ⟨hlater, trivial⟩
        · refine ⟨hlater, Or.inr ⟨⟨claims, hcall.1.mono hle⟩, n, Nat.lt_succ_self n,
            ⟨drawn, claims, owner, expiresAt, hstep, Nat.not_lt.1 hexpires⟩, fun q drawn' call hnq hqn => ?_⟩⟩
          omega
    · exact ⟨hlater, trivial⟩
  | mint id identity => exact ⟨hstore.later (not_revokedAt hstep (by simp)), trivial⟩
  | revoke id =>
    refine ⟨⟨fun id' identity hget => (hstore.1 id' identity hget).mono hle, fun r id' hr hrevoked => ?_⟩, trivial⟩
    rcases Nat.lt_succ_iff_lt_or_eq.1 hr with hlt | rfl
    · exact Finset.mem_insert_of_mem (hstore.2 r id' hlt hrevoked)
    · obtain ⟨j, drawn', hstep'⟩ := hrevoked
      obtain ⟨-, -, heq⟩ := hstep.unique hstep'
      obtain rfl := TicketCall.revoke.inj heq
      exact Finset.mem_insert_self _ _
  | returned => exact ⟨hstore.later (not_revokedAt hstep (by simp)), trivial⟩

/-- **The facts of a run**: from an empty store, with calls that begin at their first places. -/
theorem facts_at (hes : ∀ e ∈ es, TicketCalls e) (n : Nat) :
    PoolInv (StoreFacts C config now es n) (fun i _ call => CallFacts C config now es n i call)
      (ticketPool C config now es n) := by
  have hdated : Lib.Dated (ticketProgram C config) (.new U now) es (StoreFacts C config now es)
      (CallFacts C config now es) :=
    { start := ⟨fun id identity hget => (by cases hget), fun r id hr => absurd hr (Nat.not_lt_zero r)⟩
      known := fun n i call hquiet h => h.later hquiet
      idle := fun n w hquiet h => h.later (fun id ⟨j, drawn, hstep⟩ => hquiet j drawn _ hstep)
      spawn := fun n i call he hspawned => by
        have hbegins := hes _ (List.mem_of_getElem? he)
        cases call <;> first | exact hspawned | exact hbegins.elim | trivial
      next := fun n i drawn call hstep => facts_next hstep
      env := fun n op w _ h => h }
  exact hdated.holds_at n

theorem callFacts_at (hes : ∀ e ∈ es, TicketCalls e) {drawn : U} {call : TicketCall U}
    (hstep : TicketStep C config now es n i drawn call) : CallFacts C config now es n i call :=
  (facts_at hes n).2 i call hstep.2

/-! ## What a call ends with -/

theorem TicketEnds.step {answer : TicketAnswer U} (h : TicketEnds C config now es n i answer) :
    ∃ drawn call, TicketStep C config now es n i drawn call ∧
      (call.next C config drawn (ticketPool C config now es n).shared).2.2 = some answer := by
  obtain ⟨drawn, he, hout⟩ := h
  obtain ⟨call, hstep, hanswer⟩ := Lib.Program.exists_stepsAt he hout nofun
  exact ⟨drawn, call, hstep, hanswer⟩

/-- **What a call answers**: an error, a revocation, the ticket that passes the gate, or what is minted. -/
theorem next_answer {drawn : U} {w : TicketWorld U} {call : TicketCall U} {answer : TicketAnswer U}
    (h : (call.next C config drawn w).2.2 = some answer) :
    answer = .panicked ∨ answer = .revoked ∨ (∃ e, answer = .failed e) ∨
      (∃ claims id owner expiresAt, call = .checkExpiry .verify claims id (.temporary owner expiresAt) ∧
        w.now ≤ expiresAt ∧ answer = .verified ⟨claims, id, .temporary owner expiresAt, expiresAt⟩) ∨
      ∃ id identity, call = .mint id identity ∧ answer = mintTicket C config w.now id identity := by
  cases call with
  | issue =>
    simp only [TicketCall.next] at h
    split at h
    · cases h
    · exact Or.inl (Option.some.inj h).symm
  | createTemporary expiresAt => cases h
  | present way token =>
    simp only [TicketCall.next] at h
    split at h
    · cases h
    · exact Or.inr (Or.inr (Or.inl ⟨_, (Option.some.inj h).symm⟩))
  | getTemporary way claims id =>
    simp only [TicketCall.next] at h
    split at h
    · cases h
    · exact Or.inr (Or.inr (Or.inl ⟨_, (Option.some.inj h).symm⟩))
  | isRevoked way claims id identity =>
    simp only [TicketCall.next] at h
    split at h
    · exact Or.inr (Or.inr (Or.inl ⟨_, (Option.some.inj h).symm⟩))
    · cases h
  | checkExpiry way claims id identity =>
    simp only [TicketCall.next] at h
    split at h
    · rename_i owner expiresAt
      split at h
      · exact Or.inr (Or.inr (Or.inl ⟨_, (Option.some.inj h).symm⟩))
      · rename_i hexpires
        cases way with
        | verify =>
          exact Or.inr (Or.inr (Or.inr (Or.inl ⟨claims, id, owner, expiresAt, rfl, Nat.not_lt.1 hexpires,
            (Option.some.inj h).symm⟩)))
        | renew => cases h
    · exact Or.inr (Or.inr (Or.inl ⟨_, (Option.some.inj h).symm⟩))
  | mint id identity => exact Or.inr (Or.inr (Or.inr (Or.inr ⟨id, identity, rfl, (Option.some.inj h).symm⟩)))
  | revoke id => exact Or.inr (Or.inl (Option.some.inj h).symm)
  | returned => cases h

omit [DecidableEq U] in
theorem mintTicket_ne_verified (instant : Nat) (id : U) (identity : Identity U) (ticket : VerifiedTicket U) :
    mintTicket C config instant id identity ≠ .verified ticket := by
  unfold mintTicket
  split
  · exact nofun
  · split <;> exact nofun

theorem TicketEnds.verified {ticket : VerifiedTicket U} (h : TicketEnds C config now es n i (.verified ticket)) :
    AdmitsAt C config now es n i .verify ticket.ticketId := by
  obtain ⟨drawn, call, hstep, hanswer⟩ := h.step
  rcases next_answer hanswer with hans | hans | ⟨e, hans⟩ | ⟨claims, id, owner, expiresAt, rfl, hle, hans⟩ |
    ⟨id, identity, rfl, hans⟩
  · cases hans
  · cases hans
  · cases hans
  · obtain rfl := TicketAnswer.verified.inj hans
    exact ⟨drawn, claims, owner, expiresAt, hstep, hle⟩
  · exact absurd hans.symm (mintTicket_ne_verified _ id identity ticket)

theorem TicketEnds.issued {ticket : IssuedTicket U} (h : TicketEnds C config now es n i (.issued ticket)) :
    ∃ drawn id identity, TicketStep C config now es n i drawn (.mint id identity) ∧
      mintTicket C config (ticketClock C config now es n) id identity = .issued ticket := by
  obtain ⟨drawn, call, hstep, hanswer⟩ := h.step
  rcases next_answer hanswer with hans | hans | ⟨e, hans⟩ | ⟨claims, id, owner, expiresAt, rfl, hle, hans⟩ |
    ⟨id, identity, rfl, hans⟩
  · cases hans
  · cases hans
  · cases hans
  · cases hans
  · exact ⟨drawn, id, identity, hstep, hans.symm⟩

/-! ## What a token carries -/

omit [DecidableEq U] in
/-- **A minted token carries the ticket that it is minted for.** -/
theorem carries_of_mint (hC : C.Lawful) {instant : Nat} {id : U} {identity : Identity U} {ticket : IssuedTicket U}
    (h : mintTicket C config instant id identity = .issued ticket) :
    ticket.ticketId = id ∧ CarriesTicket C ticket.token id := by
  unfold mintTicket at h
  split at h
  · cases h
  · rename_i accessExpiresAt hsum
    split at h
    · rename_i token hsign
      obtain rfl := TicketAnswer.issued.inj h
      refine ⟨rfl, fun validation k at_ claims hdecode => ?_⟩
      unfold LocalJwt.sign at hsign
      split at hsign
      · cases hsign
      · obtain rfl := hC.decode_encode (Lib.ok_of_mapError hsign) hdecode
        unfold VisitorTicketClaims.ticketId mintClaims
        rw [stripStart_append]
        show (C.parseStr (C.display id)).mapError _ = .ok id
        rw [hC.parseStr_display]
        rfl
    · cases h

omit [DecidableEq U] in
theorem decode_of_decodeToken {way : Presentation} {token : String} {instant : Nat} {claims : VisitorTicketClaims}
    (h : decodeToken C config way token instant = .ok claims) :
    ∃ validation, C.decode validation token config.secret (timestamp instant) = .ok claims := by
  cases way with
  | verify => exact ⟨_, Lib.ok_of_mapError (Lib.ok_of_mapError h)⟩
  | renew => exact ⟨_, Lib.ok_of_mapError (Lib.ok_of_mapError h)⟩

theorem DecodedBefore.carries (hC : C.Lawful) {way : Presentation} {claims : VisitorTicketClaims} {id : U}
    (h : DecodedBefore C config now es n i way claims id) {token : String}
    (hspawned : (spawned es)[i]? = some (.present way token)) : CarriesTicket C token id := by
  obtain ⟨d, drawn, token', hd, hstep, hspawned', hdecoded, hid⟩ := h
  obtain ⟨-, rfl⟩ := TicketCall.present.inj (Option.some.inj (hspawned'.symm.trans hspawned))
  obtain ⟨validation, hdecode⟩ := decode_of_decodeToken hdecoded
  intro validation' k instant claims' hdecode'
  obtain rfl := hC.decode_unique hdecode hdecode'
  exact hid

theorem DecodedBefore.ticket_eq {way way' : Presentation} {claims : VisitorTicketClaims} {id id' : U}
    (h : DecodedBefore C config now es n i way claims id) {token : String}
    (hspawned : (spawned es)[i]? = some (.present way' token)) (hcarries : CarriesTicket C token id') : id' = id := by
  obtain ⟨d, drawn, token', hd, hstep, hspawned', hok, hid⟩ := h
  obtain ⟨-, rfl⟩ := TicketCall.present.inj (Option.some.inj (hspawned'.symm.trans hspawned))
  obtain ⟨validation, hdecode⟩ := decode_of_decodeToken hok
  exact Except.ok.inj ((hcarries _ _ _ _ hdecode).symm.trans hid)

theorem DecodedBefore.minted (hunforgeable : Unforgeable C config now es) {way : Presentation}
    {claims : VisitorTicketClaims} {id : U} (h : DecodedBefore C config now es n i way claims id) :
    ∃ m j source, m < n ∧ TicketEnds C config now es m j (.issued source) ∧
      (spawned es)[i]? = some (.present way source.token) := by
  obtain ⟨d, drawn, token, hd, hstep, hspawned, hok, -⟩ := h
  obtain ⟨m, j, source, hmd, hsource, rfl⟩ := hunforgeable d i drawn way token claims hstep hok
  exact ⟨m, j, source, Nat.lt_trans hmd hd, hsource, hspawned⟩

/-- **A token of the manager is a copy of the token of its issue**, and carries its ticket. -/
theorem copy_of_issued (hC : C.Lawful) (hes : ∀ e ∈ es, TicketCalls e) (hunforgeable : Unforgeable C config now es)
    {ticket : IssuedTicket U} (hends : TicketEnds C config now es n i (.issued ticket)) :
    Copy C config now es n ticket.token ticket.ticketId ∧ CarriesTicket C ticket.token ticket.ticketId := by
  induction n using Nat.strong_induction_on generalizing i ticket with
  | _ n ih =>
    obtain ⟨drawn, id, identity, hstep, hmint⟩ := hends.issued
    obtain ⟨rfl, hcarries⟩ := carries_of_mint hC hmint
    refine ⟨?_, hcarries⟩
    rcases callFacts_at hes hstep with hissue | ⟨⟨claims, hdecoded⟩, -⟩
    · exact Copy.issued hissue hends
    · -- the token that was presented was minted before, and is a copy by the induction
      obtain ⟨m, j, source, hmn, hsource, hspawned⟩ := hdecoded.minted hunforgeable
      obtain ⟨hcopy, hsourceCarries⟩ := ih m hmn hsource
      have hsame : source.ticketId = ticket.ticketId := hdecoded.ticket_eq hspawned hsourceCarries
      exact Copy.renewed (hsame ▸ hcopy) hmn hspawned hends

theorem Copy.carries (hC : C.Lawful) {token : String} {id : U} (h : Copy C config now es n token id) :
    CarriesTicket C token id := by
  cases h with
  | issued _ hends =>
    obtain ⟨drawn, id, identity, -, hmint⟩ := hends.issued
    obtain ⟨rfl, hcarries⟩ := carries_of_mint hC hmint
    exact hcarries
  | renewed _ _ _ hends =>
    obtain ⟨drawn, id, identity, -, hmint⟩ := hends.issued
    obtain ⟨rfl, hcarries⟩ := carries_of_mint hC hmint
    exact hcarries

/-! ## Tickets lapse -/

theorem AdmitsAt.alive (hes : ∀ e ∈ es, TicketCalls e) (hfresh : FreshIds C config now es) {way : Presentation} {id : U}
    (h : AdmitsAt C config now es n i way id) : Alive C config now es n i id := by
  obtain ⟨drawn, claims, owner, expiresAt, hstep, hle⟩ := h
  obtain ⟨-, ⟨a, k, expiresAt', hidentity, hk, hissued, hexpires⟩, hfound⟩ := callFacts_at hes hstep
  obtain ⟨-, rfl⟩ := Identity.temporary.inj hidentity
  refine ⟨⟨a, k, hk, hissued, by omega⟩, ?_, hfound⟩
  rintro a a' k k' ⟨j, _, _, _, _, hcreate⟩ ⟨j', _, _, _, _, hcreate'⟩
  exact hfresh k k' j j' id _ _ hcreate hcreate'

/-- **What passes the gate is a copy of the token of its issue.** -/
theorem AdmitsAt.copy (hC : C.Lawful) (hes : ∀ e ∈ es, TicketCalls e) (hunforgeable : Unforgeable C config now es)
    {way : Presentation} {id : U} (h : AdmitsAt C config now es n i way id) :
    ∃ m token, m < n ∧ (spawned es)[i]? = some (.present way token) ∧ Copy C config now es m token id := by
  obtain ⟨drawn, claims, owner, expiresAt, hstep, hle⟩ := h
  obtain ⟨hdecoded, -, -⟩ := callFacts_at hes hstep
  obtain ⟨m, j, source, hmn, hsource, hspawned⟩ := hdecoded.minted hunforgeable
  obtain ⟨hcopy, hcarries⟩ := copy_of_issued hC hes hunforgeable hsource
  have hsame : source.ticketId = id := hdecoded.ticket_eq hspawned hcarries
  exact ⟨m, source.token, hmn, hspawned, hsame ▸ hcopy⟩

end Facts

/-- **Visitor tickets do not outlive their principal**, in any run from an empty store. -/
theorem ticketsLapse {U : Type} [DecidableEq U] (C : TicketCrates U) (hC : C.Lawful) (config : VisitorTicketConfig)
    (now : Nat) (es : List (TicketEvent U)) (hes : ∀ e ∈ es, TicketCalls e) (hfresh : FreshIds C config now es)
    (hunforgeable : Unforgeable C config now es) : TicketsLapse C config now es where
  verified n i ticket hends := hends.verified
  renewed n i token ticket hspawned hends := by
    obtain ⟨drawn, id, identity, hstep, hmint⟩ := hends.issued
    obtain ⟨rfl, hcarries⟩ := carries_of_mint hC hmint
    rcases callFacts_at hes hstep with hissue | ⟨⟨claims, hdecoded⟩, hgate⟩
    · cases hissue.symm.trans hspawned
    · exact ⟨hdecoded.carries hC hspawned, hcarries, hgate⟩
  alive g i way id hadmits := ⟨hadmits.alive hes hfresh, hadmits.copy hC hes hunforgeable⟩
  ended r id m token g i way way' id' hrevoked hcopy hspawned hafter hadmits := by
    obtain ⟨drawn, claims, owner, expiresAt, hstep, -⟩ := hadmits
    obtain ⟨hdecoded, -, c, drawn', call, hc, hask, hunrevoked⟩ := callFacts_at hes hstep
    obtain rfl : id = id' := hdecoded.ticket_eq hspawned (hcopy.carries hC)
    exact hunrevoked r (hafter c drawn' call hask) hrevoked

/-! ## A ticket that is issued, renewed and verified -/

/-- Libraries for a test: a UUID is its text, and the tokens and their claims are a table. -/
def tableTickets (table : List (String × VisitorTicketClaims)) : TicketCrates String where
  parseStr := .ok
  display := id
  unprintable _ := false
  debugIdentity identity := identity.id
  encode c _ :=
    match table.find? (fun e => decide (table.lookup e.1 = some c)) with
    | some e => .ok e.1
    | none => .error "unknown claims"
  decode v token _ now :=
    match table.lookup token with
    | some c => if v.validateExp = true ∧ c.exp + v.leeway < now then .error .expiredSignature else .ok c
    | none => .error (.other "InvalidToken")

theorem tableTickets_decode {table : List (String × VisitorTicketClaims)} {v : Validation} {token : String}
    {k : List UInt8} {now : Int} {c : VisitorTicketClaims} (h : (tableTickets table).decode v token k now = .ok c) :
    table.lookup token = some c := by
  simp only [tableTickets] at h
  cases hl : table.lookup token with
  | none => rw [hl] at h; cases h
  | some c' =>
    rw [hl] at h
    dsimp only at h
    split at h
    · cases h
    · exact congrArg some (Except.ok.inj h)

theorem tableTickets_lawful (table : List (String × VisitorTicketClaims)) : (tableTickets table).Lawful where
  parseStr_display _ := rfl
  decode_unique h h' := Option.some.inj ((tableTickets_decode h).symm.trans (tableTickets_decode h'))
  decode_encode {c k token v k' now c'} he hd := by
    simp only [tableTickets] at he
    split at he
    · rename_i e hfind
      obtain rfl := Except.ok.inj he
      have hfound := List.find?_some hfind
      exact Option.some.inj ((tableTickets_decode hd).symm.trans (of_decide_eq_true hfound))
    · cases he

def visitorId : String := "018f6b3c-7e1a-7000-8000-000000000001"

def visitorTokens : List (String × VisitorTicketClaims) :=
  [("token-1", ⟨"visitor:" ++ visitorId, "temporary", "anon", 1000, 87400⟩),
    ("token-2", ⟨"visitor:" ++ visitorId, "temporary", "anon", 4600, 91000⟩)]

/-- The ticket is issued, renewed an hour later, and the renewed token is verified. -/
def renewedRun : List (TicketEvent String) :=
  [.spawn .issue, .step 0 visitorId, .step 0 visitorId, .step 0 visitorId, .env (.elapse (3600 * nanosPerSec)),
    .spawn (.present .renew "token-1"), .step 1 visitorId, .step 1 visitorId, .step 1 visitorId, .step 1 visitorId,
    .step 1 visitorId, .spawn (.present .verify "token-2"), .step 2 visitorId, .step 2 visitorId, .step 2 visitorId,
    .step 2 visitorId]

def visitorStart : Nat := (1000 - minTimestamp).toNat * nanosPerSec

/-- Where the run creates a principal and presents a token. -/
def renewedPlaces (n _i : Nat) : TicketCall String → Bool
  | .createTemporary _ => n == 2
  | .present _ token => n == 6 && token == "token-1" || n == 12 && token == "token-2"
  | _ => true

theorem renewed_places {n i : Nat} {drawn : String} {call : TicketCall String}
    (h : TicketStep (tableTickets visitorTokens) (.new []) visitorStart renewedRun n i drawn call) :
    renewedPlaces n i call = true :=
  h.check (by decide +kernel)

theorem ticketsLapse_renewed : TicketsLapse (tableTickets visitorTokens) (.new []) visitorStart renewedRun := by
  refine ticketsLapse _ (tableTickets_lawful _) _ _ _ ?_ ?_ ?_
  · intro e he
    simp only [renewedRun, List.mem_cons, List.not_mem_nil, or_false] at he
    rcases he with rfl | rfl | rfl | rfl | rfl | rfl | rfl | rfl | rfl | rfl | rfl | rfl | rfl | rfl | rfl | rfl <;> trivial
  · intro k k' j j' id expiresAt expiresAt' hk hk'
    rw [eq_of_beq (renewed_places hk), eq_of_beq (renewed_places hk')]
  · intro d i drawn way token claims hpresent _
    have hplaces := renewed_places hpresent
    simp only [renewedPlaces, Bool.or_eq_true, Bool.and_eq_true, beq_iff_eq] at hplaces
    rcases hplaces with ⟨rfl, rfl⟩ | ⟨rfl, rfl⟩
    · exact ⟨3, 0, _, by decide, ⟨visitorId, rfl, rfl⟩, rfl⟩
    · exact ⟨10, 1, _, by decide, ⟨visitorId, rfl, rfl⟩, rfl⟩

end Auth
end Kirino
