import Kirino.Lib.Entries
import Kirino.Lib.HashMap
import Kirino.Lib.Instants
import Kirino.Lib.Threads
import Kirino.Utils.ConstantTime
/-!
# OneTimeToken — tokens that pass once (`auth/credential/one_time.rs`)

The store keeps the hash of a token with its end, and a claim takes the record out before it reads the clock.  A claim
passes exactly when the last issue of the token's hash was not claimed since and is not at its end, whatever the sweeps
took out meanwhile (`claim_exact`).  A credential compares before it exchanges its flag: of any calls in flight at once
one passes (`verify_once`).  The hash is the digest library's, a parameter.
-/
namespace Kirino
namespace Auth

open Lib (HashMap Machine Program Pool PoolEvent instantAfter)
open Utils (constantTimeEq constantTimeEq_toUTF8)

def tokenCharset : List Char := "ABCDEFGHIJKLMNOPQRSTUVWXYZabcdefghijklmnopqrstuvwxyz0123456789".toList

/-- The token of the indices drawn. -/
def generateToken (draws : Vector (Fin 62) 32) : String :=
  String.ofList (draws.toList.map (fun i => tokenCharset.getD i 'A'))

/-! ## The store -/

inductive OneTimeOp where
  | claim (token : String)
  | issue (draws : Vector (Fin 62) 32) (ttlSecs : UInt64)
  | cleanupExpired (reads : String → Nat)

/-- A call in the order of the locks.  The instant is the one read under the lock; a cleanup reads the clock anew for
every record. -/
structure OneTimeEvent where
  now : Nat
  op : OneTimeOp

inductive OneTimeAnswer where
  | claimed (answer : Bool)
  | issued (token : String)
  | cleaned (count : Nat)
  | panicked
deriving DecidableEq

namespace InMemoryOneTimeStore

/-- The ends of the pending tokens, by the hash of the token. -/
abbrev PendingTokens := HashMap String Nat

/-- The end of a token issued now. -/
def tokenEnd (now : Nat) (ttlSecs : UInt64) : Option Nat := instantAfter now (10 ^ 9 * ttlSecs.toNat)

section Calls
variable (hashToken : String → String) (tokens : PendingTokens)

def claim (now : Nat) (token : String) : PendingTokens × OneTimeAnswer :=
  match tokens.get? (hashToken token) with
  | some expiresAt => (tokens.remove (hashToken token), .claimed (decide (now < expiresAt)))
  | none => (tokens, .claimed false)

def issue (now : Nat) (draws : Vector (Fin 62) 32) (ttlSecs : UInt64) : PendingTokens × OneTimeAnswer :=
  let token := generateToken draws
  let kept := tokens.retain (fun _ expiresAt => decide (now < expiresAt))
  match tokenEnd now ttlSecs with
  | some expiresAt => (kept.insert (hashToken token) expiresAt, .issued token)
  | none => (kept, .panicked)

def cleanupExpired (reads : String → Nat) : PendingTokens × OneTimeAnswer :=
  let kept := tokens.retain (fun hash expiresAt => decide (reads hash < expiresAt))
  (kept, .cleaned (tokens.len - kept.len))

def call (event : OneTimeEvent) : PendingTokens × OneTimeAnswer :=
  match event.op with
  | .claim token => claim hashToken tokens event.now token
  | .issue draws ttlSecs => issue hashToken tokens event.now draws ttlSecs
  | .cleanupExpired reads => cleanupExpired tokens reads

end Calls

def machine (hashToken : String → String) : Machine PendingTokens OneTimeEvent OneTimeAnswer where
  step tokens event := (call hashToken tokens event).1
  out tokens event := (call hashToken tokens event).2

/-! ## What a call does to a record -/

variable (hashToken : String → String)

/-- The call issues a token of the hash that ends then. -/
def Issues (event : OneTimeEvent) (hash : String) (expiresAt : Nat) : Prop :=
  ∃ draws ttlSecs, event.op = .issue draws ttlSecs ∧ hashToken (generateToken draws) = hash ∧
    tokenEnd event.now ttlSecs = some expiresAt

/-- The call claims a token of the hash. -/
def Claims (event : OneTimeEvent) (hash : String) : Prop := ∃ token, event.op = .claim token ∧ hashToken token = hash

/-- The call sweeps the records, reading this instant at the one of the hash. -/
def Sweeps (event : OneTimeEvent) (hash : String) (instant : Nat) : Prop :=
  (∃ draws ttlSecs, event.op = .issue draws ttlSecs ∧ instant = event.now) ∨
    ∃ reads, event.op = .cleanupExpired reads ∧ instant = reads hash

/-- The call takes the record out. -/
def TakesOut (event : OneTimeEvent) (record : String × Nat) : Prop :=
  Claims hashToken event record.1 ∨ (∃ expiresAt, Issues hashToken event record.1 expiresAt) ∨
    ∃ instant, Sweeps event record.1 instant ∧ record.2 ≤ instant

/-- **What a call does to the records.** -/
theorem pending_step_iff (tokens : PendingTokens) (event : OneTimeEvent) (record : String × Nat) :
    ((machine hashToken).step tokens event).get? record.1 = some record.2 ↔
      Issues hashToken event record.1 record.2 ∨
        tokens.get? record.1 = some record.2 ∧ ¬ TakesOut hashToken event record := by
  obtain ⟨now, op⟩ := event
  obtain ⟨hash, expiresAt⟩ := record
  cases op with
  | claim token =>
    simp only [machine, call, claim, Issues, TakesOut, Claims, Sweeps, reduceCtorEq, false_and, exists_false, or_false,
      false_or, OneTimeOp.claim.injEq, exists_eq_left']
    cases hget : tokens.get? (hashToken token) with
    | some expiresAt' =>
      simp only [HashMap.get?_remove]
      by_cases hhash : hash = hashToken token
      · simp [hhash]
      · simp [hhash, Ne.symm hhash]
    | none =>
      by_cases hhash : hash = hashToken token
      · simp [hhash, hget]
      · simp [Ne.symm hhash]
  | issue draws ttlSecs =>
    have hissues : ∀ expiresAt, Issues hashToken ⟨now, .issue draws ttlSecs⟩ hash expiresAt ↔
        hashToken (generateToken draws) = hash ∧ tokenEnd now ttlSecs = some expiresAt := by
      intro expiresAt
      unfold Issues
      constructor
      · rintro ⟨draws', ttlSecs', hop, hhash, hafter⟩
        cases hop
        exact ⟨hhash, hafter⟩
      · rintro ⟨hhash, hafter⟩
        exact ⟨draws, ttlSecs, rfl, hhash, hafter⟩
    have hsweeps : (∃ instant, Sweeps ⟨now, .issue draws ttlSecs⟩ hash instant ∧ expiresAt ≤ instant) ↔ expiresAt ≤ now := by
      constructor
      · rintro ⟨instant, ⟨_, _, -, rfl⟩ | ⟨_, hop, -⟩, hle⟩
        · exact hle
        · cases hop
      · exact fun hle => ⟨now, Or.inl ⟨draws, ttlSecs, rfl, rfl⟩, hle⟩
    simp only [machine, call, issue, TakesOut, Claims, hissues, hsweeps, reduceCtorEq, false_and, exists_false, false_or]
    cases hafter : tokenEnd now ttlSecs with
    | none => simp [HashMap.get?_retain_eq_some]
    | some expiresAt' =>
      rw [HashMap.get?_insert]
      by_cases hhash : hash = hashToken (generateToken draws)
      · simp [hhash]
      · simp [hhash, Ne.symm hhash, HashMap.get?_retain_eq_some]
  | cleanupExpired reads =>
    simp only [machine, call, cleanupExpired, Issues, TakesOut, Claims, Sweeps, reduceCtorEq, false_and, exists_false,
      false_or, HashMap.get?_retain_eq_some, decide_eq_true_eq]
    simp

/-- The last issue of the hash before event `k`, which no call claimed since. -/
def Pending (events : List OneTimeEvent) (k : Nat) (hash : String) (expiresAt : Nat) : Prop :=
  ∃ i event, i < k ∧ events[i]? = some event ∧ Issues hashToken event hash expiresAt ∧
    ∀ j f, i < j → j < k → events[j]? = some f →
      ¬ Claims hashToken f hash ∧ ∀ expiresAt', ¬ Issues hashToken f hash expiresAt'

variable {hashToken} {events : List OneTimeEvent} {k : Nat} {hash : String} {expiresAt : Nat}

/-- **Sweeps go unseen**: a record that is not at its end is there exactly when its token is pending. -/
theorem get?_eq_some_iff_pending (hclock : ∀ f ∈ events.take k, ∀ instant, Sweeps f hash instant → instant < expiresAt) :
    ((machine hashToken).run HashMap.empty (events.take k)).get? hash = some expiresAt ↔
      Pending hashToken events k hash expiresAt := by
  refine (Lib.Entries.in_take_iff (M := machine hashToken)
    (fun tokens (record : String × Nat) => tokens.get? record.1 = some record.2)
    (fun _ event record => Issues hashToken event record.1 record.2) (TakesOut hashToken)
    (pending_step_iff hashToken) (fun _ => by simp) events k (hash, expiresAt)).trans ?_
  refine exists_congr (fun i => exists_congr (fun event => and_congr_right (fun _ => and_congr_right (fun _ =>
    and_congr_right (fun _ => ⟨fun h j f hij hjk hf => ?_, fun h j f hij hjk hf => ?_⟩)))))
  · have hkept := h j f hij hjk hf
    exact ⟨fun hclaims => hkept (Or.inl hclaims), fun expiresAt' hissues => hkept (Or.inr (Or.inl ⟨expiresAt', hissues⟩))⟩
  · obtain ⟨hclaims, hissues⟩ := h j f hij hjk hf
    rintro (hclaimed | ⟨expiresAt', hissued⟩ | ⟨instant, hswept, hended⟩)
    · exact hclaims hclaimed
    · exact hissues expiresAt' hissued
    · have hbefore : f ∈ events.take k := List.mem_of_getElem? (by rw [List.getElem?_take, if_pos hjk, hf])
      exact absurd (hclock f hbefore instant hswept) (Nat.not_lt.2 hended)

theorem claim_eq_true_iff {tokens : PendingTokens} {now : Nat} {token : String} :
    (machine hashToken).out tokens ⟨now, .claim token⟩ = .claimed true ↔
      ∃ expiresAt, tokens.get? (hashToken token) = some expiresAt ∧ now < expiresAt := by
  simp only [machine, call, claim]
  cases tokens.get? (hashToken token) <;> simp

/-- **A claim passes once for an issue**: over any run whose sweeps do not read a later clock than the claim, it passes
exactly when the last issue of its hash is not claimed since and not at its end; so between two claims of one hash that
the second passes, the hash was issued again. -/
theorem claim_exact (hashToken : String → String) (events : List OneTimeEvent) (k now : Nat) (token : String)
    (hk : events[k]? = some ⟨now, .claim token⟩)
    (hclock : ∀ f ∈ events.take k, ∀ instant, Sweeps f (hashToken token) instant → instant ≤ now) :
    (((machine hashToken).outs HashMap.empty events)[k]? = some (.claimed true) ↔
      ∃ expiresAt, Pending hashToken events k (hashToken token) expiresAt ∧ now < expiresAt) ∧
    (((machine hashToken).outs HashMap.empty events)[k]? = some (.claimed true) →
      ∀ i event, i < k → events[i]? = some event → Claims hashToken event (hashToken token) →
        ∃ m event' expiresAt, i < m ∧ m < k ∧ events[m]? = some event' ∧
          Issues hashToken event' (hashToken token) expiresAt) := by
  have hpasses : ((machine hashToken).outs HashMap.empty events)[k]? = some (.claimed true) ↔
      ∃ expiresAt, Pending hashToken events k (hashToken token) expiresAt ∧ now < expiresAt := by
    rw [Machine.outs_getElem?, hk, Option.map_some, Option.some.injEq, claim_eq_true_iff]
    refine exists_congr (fun expiresAt => and_congr_left (fun hlive => get?_eq_some_iff_pending (fun f hf instant hs => ?_)))
    exact Nat.lt_of_le_of_lt (hclock f hf instant hs) hlive
  refine ⟨hpasses, fun hpassed i event hik hi hclaims => ?_⟩
  obtain ⟨expiresAt, ⟨m, event', hmk, hm, hissues, hlater⟩, -⟩ := hpasses.1 hpassed
  refine ⟨m, event', expiresAt, ?_, hmk, hm, hissues⟩
  rcases Nat.lt_trichotomy i m with him | rfl | hmi
  · exact him
  · -- one call is not both a claim and an issue
    cases hi.symm.trans hm
    obtain ⟨_, hclaim, -⟩ := hclaims
    obtain ⟨_, _, hissue, -⟩ := hissues
    cases hclaim.symm.trans hissue
  · exact absurd hclaims (hlater i event hmi hik hi).1

/-- A token is claimed after a cleanup that read the clock before its end. -/
def claimedToken : List OneTimeEvent :=
  [⟨0, .issue (Vector.replicate 32 0) 5⟩, ⟨1, .cleanupExpired (fun _ => 2)⟩, ⟨3, .claim "AAAAAAAAAAAAAAAAAAAAAAAAAAAAAAAA"⟩]

theorem claim_exact_issued :
    ((machine id).outs HashMap.empty claimedToken)[2]? = some (.claimed true) := by
  refine (claim_exact id claimedToken 2 3 _ rfl ?_).1.2
    ⟨5 * 10 ^ 9, ⟨0, _, by decide, rfl, ⟨Vector.replicate 32 0, 5, rfl, ?_, ?_⟩, ?_⟩, by decide⟩
  · rintro f hf instant hsweeps
    simp only [claimedToken, List.take_succ_cons, List.take_zero, List.mem_cons, List.not_mem_nil, or_false] at hf
    rcases hf with rfl | rfl <;> rcases hsweeps with ⟨_, _, hop, rfl⟩ | ⟨_, hop, rfl⟩ <;> cases hop <;> decide
  · decide +kernel
  · decide +kernel
  · intro j f hj hk hf
    obtain rfl : j = 1 := by omega
    cases hf
    exact ⟨fun ⟨_, hop, _⟩ => (by cases hop), fun _ ⟨_, _, hop, _⟩ => (by cases hop)⟩

end InMemoryOneTimeStore

/-! ## The credential -/

/-- A call of `verify` before its comparison, before its exchange, or at its end. -/
inductive VerifyCall where
  | compare (presented : String)
  | exchange (presented : String)
  | done (presented : String) (answer : Bool)

namespace OneTimeCredential

/-- The next step of a call over the flag `used`; the exchange is one step. -/
def next (token : String) (used : Bool) : VerifyCall → Bool × VerifyCall × Option Bool
  | .compare presented =>
    if constantTimeEq token.toUTF8.data.toList presented.toUTF8.data.toList then (used, .exchange presented, none)
    else (used, .done presented false, some false)
  | .exchange presented =>
    if used = false then (true, .done presented true, some true) else (used, .done presented false, some false)
  | .done presented answer => (used, .done presented answer, none)

def program (token : String) : Program Bool VerifyCall Unit Empty (Option Bool) where
  next _ _ used call := next token used call
  env e _ := e.elim
  idle := none

/-- A call of `verify` begins, or a call in flight takes its next step. -/
inductive CredentialEvent where
  | verify (presented : String)
  | step (call : Nat)

def CredentialEvent.inPool : CredentialEvent → PoolEvent VerifyCall Unit Empty
  | .verify presented => .spawn (.compare presented)
  | .step call => .step call ()

/-- A new credential of the token, and the calls made of it. -/
def pool (token : String) (events : List CredentialEvent) : Pool Bool VerifyCall :=
  (program token).machine.run ⟨false, []⟩ (events.map CredentialEvent.inPool)

def passed : VerifyCall → Bool
  | .done _ answer => answer
  | _ => false

/-- What is known of a call while the flag is as it is. -/
def CallFacts (token : String) (used : Bool) : VerifyCall → Prop
  | .compare _ => True
  | .exchange presented => presented = token
  | .done presented true => presented = token
  | .done presented false => presented = token → used = true

/-- The calls that passed are as many as the flag says. -/
structure OncePassed (token : String) (p : Pool Bool VerifyCall) : Prop where
  count : p.threads.countP passed = p.shared.toNat
  facts : ∀ call ∈ p.threads, CallFacts token p.shared call

variable {token : String}

theorem callFacts_used {used : Bool} {call : VerifyCall} (h : CallFacts token used call) : CallFacts token true call := by
  cases call with
  | done presented answer =>
    cases answer with
    | true => exact h
    | false => exact fun _ => rfl
  | _ => exact h

theorem countP_passed_set {l : List VerifyCall} {i : Nat} {call call' : VerifyCall} (hcall : l[i]? = some call)
    (hnot : passed call = false) : (l.set i call').countP passed = l.countP passed + (passed call').toNat := by
  obtain ⟨hi, hget⟩ := List.getElem?_eq_some_iff.1 hcall
  rw [List.countP_set hi, hget, hnot]
  cases passed call' <;> simp

theorem facts_set {l : List VerifyCall} {i : Nat} {call : VerifyCall} {used : Bool}
    (hall : ∀ call ∈ l, CallFacts token used call) (hcall : CallFacts token used call) :
    ∀ call' ∈ l.set i call, CallFacts token used call' := by
  intro call' hmem
  rcases List.mem_or_eq_of_mem_set hmem with hmem | rfl
  · exact hall call' hmem
  · exact hcall

/-- **A step of a call passes it only while the flag is down.** -/
theorem oncePassed_next {p : Pool Bool VerifyCall} (h : OncePassed token p) {i : Nat} {call : VerifyCall}
    (hcall : p.threads[i]? = some call) :
    OncePassed token ⟨(next token p.shared call).1, p.threads.set i (next token p.shared call).2.1⟩ := by
  have hfact := h.facts call (List.mem_of_getElem? hcall)
  cases call with
  | compare presented =>
    simp only [next, constantTimeEq_toUTF8, decide_eq_true_eq]
    by_cases hsame : token = presented
    · rw [if_pos hsame]
      exact ⟨by rw [countP_passed_set hcall rfl, h.count]; rfl, facts_set h.facts hsame.symm⟩
    · rw [if_neg hsame]
      exact ⟨by rw [countP_passed_set hcall rfl, h.count]; rfl, facts_set h.facts (fun heq => absurd heq.symm hsame)⟩
  | exchange presented =>
    cases hused : p.shared with
    | false =>
      refine ⟨?_, facts_set (fun call' hmem => callFacts_used (h.facts call' hmem)) hfact⟩
      simp only [next, if_true]
      rw [countP_passed_set hcall rfl, h.count, hused]
      rfl
    | true =>
      refine ⟨?_, facts_set (fun call' hmem => callFacts_used (h.facts call' hmem)) (fun _ => rfl)⟩
      simp only [next, Bool.true_eq_false, if_false]
      rw [countP_passed_set hcall rfl, h.count, hused]
      rfl
  | done presented answer =>
    have hsame : p.threads.set i (.done presented answer) = p.threads := by
      obtain ⟨hi, hget⟩ := List.getElem?_eq_some_iff.1 hcall
      rw [← hget, List.set_getElem_self]
    simp only [next, hsame]
    exact h

theorem oncePassed_step {p : Pool Bool VerifyCall} (h : OncePassed token p) (event : CredentialEvent) :
    OncePassed token ((program token).machine.step p event.inPool) := by
  cases event with
  | verify presented =>
    refine ⟨?_, fun call hcall => ?_⟩
    · rw [CredentialEvent.inPool, Program.machine_spawn, List.countP_append, h.count]
      rfl
    · rcases List.mem_append.1 hcall with hcall | hcall
      · exact h.facts call hcall
      · rw [List.mem_singleton.1 hcall]
        trivial
  | step i =>
    rw [CredentialEvent.inPool]
    cases hcall : p.threads[i]? with
    | none =>
      rw [((program token).machine_step_none hcall ()).1]
      exact h
    | some call =>
      rw [((program token).machine_step hcall ()).1]
      exact oncePassed_next h hcall

/-- **A credential passes one call**: in any interleaving of any calls at most one passes, it presented the token, and
once any call that presented the token is at its end one has passed. -/
theorem verify_once (token : String) (events : List CredentialEvent) :
    (pool token events).threads.countP passed ≤ 1 ∧
      (∀ presented, .done presented true ∈ (pool token events).threads → presented = token) ∧
      ∀ answer, .done token answer ∈ (pool token events).threads → (pool token events).threads.countP passed = 1 := by
  have hpool : OncePassed token (pool token events) := by
    refine (program token).machine.run_invariant (fun _ e => ∃ event : CredentialEvent, e = event.inPool) (OncePassed token)
      ?_ _ _ ⟨rfl, nofun⟩ ((program token).machine.along_of_forall _ _ _ (fun _ e he => ?_))
    · rintro p _ h ⟨event, rfl⟩
      exact oncePassed_step h event
    · obtain ⟨event, -, rfl⟩ := List.mem_map.1 he
      exact ⟨event, rfl⟩
  refine ⟨hpool.count ▸ Bool.toNat_le _, fun presented hdone => hpool.facts _ hdone, fun answer hdone => ?_⟩
  cases answer with
  | true =>
    have hpos : 0 < (pool token events).threads.countP passed := List.countP_pos_iff.2 ⟨_, hdone, rfl⟩
    have hle : (pool token events).threads.countP passed ≤ 1 := hpool.count ▸ Bool.toNat_le _
    omega
  | false => rw [hpool.count, hpool.facts _ hdone rfl, Bool.toNat_true]

end OneTimeCredential
end Auth
end Kirino
