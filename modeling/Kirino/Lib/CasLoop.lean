import Mathlib.Data.Nat.Count
import Kirino.Lib.Threads
/-!
# CasLoop — calls that load a value, decide on it, and swap it

A call loads the shared value and decides on what it loaded: it stops with a result, or tries to put a new value in the
place of the one it loaded.  The swap fails when another value stands there by then, and the call begins again, up to a
number of tries.  In every run a swap that succeeds is one atomic step from the value it decided on (`wins_spec`), what each
such step keeps of the value holds of it throughout (`value_at`), and every call ends (`exchanges_le`, `done_of_steps`).
-/
namespace Kirino
namespace Lib

/-- What a call decides on the value that it loaded. -/
inductive Attempt (V ρ : Type) where
  | stop (result : ρ)
  | swap (new : V)
deriving DecidableEq, Repr

structure CasLoop (A V ρ : Type) where
  attempt : A → V → Attempt V ρ
  won : ρ
  lost : ρ
  maxTries : Nat
  maxTries_pos : 0 < maxTries
  lost_ne : lost ≠ won
  stop_ne : ∀ a v result, attempt a v = .stop result → result ≠ won

/-- A call at its next step; `failed` counts the swaps that did not succeed. -/
inductive CasCall (A V ρ : Type) where
  | load (request : A) (failed : Nat)
  | exchange (request : A) (failed : Nat) (current new : V)
  | done (result : ρ)
deriving DecidableEq, Repr

def CasCall.isExchange {A V ρ : Type} : CasCall A V ρ → Bool
  | .exchange _ _ _ _ => true
  | _ => false

/-- A call begins, or takes its next step. -/
inductive CasEvent (A : Type) where
  | call (request : A)
  | step (i : Nat)
deriving DecidableEq, Repr

def CasEvent.inPool {A V ρ : Type} : CasEvent A → PoolEvent (CasCall A V ρ) Unit Empty
  | .call request => .spawn (.load request 0)
  | .step i => .step i ()

/-- What the calls of the events ask for, in order. -/
def requests {A : Type} : List (CasEvent A) → List A
  | [] => []
  | .call request :: es => request :: requests es
  | .step _ :: es => requests es

theorem requests_append {A : Type} : ∀ es fs : List (CasEvent A), requests (es ++ fs) = requests es ++ requests fs
  | [], _ => rfl
  | .call request :: es, fs => congrArg (request :: ·) (requests_append es fs)
  | .step _ :: es, fs => requests_append es fs

theorem spawned_map {A V ρ : Type} : ∀ es : List (CasEvent A),
    Program.spawned (es.map (@CasEvent.inPool A V ρ)) = (requests es).map (fun request => .load request 0)
  | [] => rfl
  | .call request :: es => congrArg (CasCall.load request 0 :: ·) (spawned_map es)
  | .step _ :: es => spawned_map es

namespace CasLoop

section
variable {A V ρ : Type} [DecidableEq V] (loop : CasLoop A V ρ)

def next (v : V) : CasCall A V ρ → V × CasCall A V ρ × Option ρ
  | .load request failed =>
    match loop.attempt request v with
    | .stop result => (v, .done result, some result)
    | .swap new => (v, .exchange request failed v new, none)
  | .exchange request failed current new =>
    if v = current then (new, .done loop.won, some loop.won)
    else if failed + 1 ≥ loop.maxTries then (v, .done loop.lost, some loop.lost)
    else (v, .load request (failed + 1), none)
  | .done result => (v, .done result, none)

def program : Program V (CasCall A V ρ) Unit Empty (Option ρ) where
  next _ _ v call := loop.next v call
  env e _ := e.elim
  idle := none

/-! ## What is counted of a run -/

variable (v₀ : V) (es : List (CasEvent A))

/-- The pool after the first events. -/
def poolAt (n : Nat) : Pool V (CasCall A V ρ) := loop.program.machine.run ⟨v₀, []⟩ ((es.map CasEvent.inPool).take n)

def valueAt (n : Nat) : V := (loop.poolAt v₀ es n).shared

/-- Event `j` is a step of call `i`. -/
def takesStep (i j : Nat) : Bool :=
  match es[j]? with
  | some (.step i') => decide (i' = i) && (loop.poolAt v₀ es j).threads[i]?.isSome
  | _ => false

/-- Event `j` is a swap, or a failed one, of call `i`. -/
def exchanges (i j : Nat) : Bool :=
  match es[j]? with
  | some (.step i') => decide (i' = i) && ((loop.poolAt v₀ es j).threads[i]?).any CasCall.isExchange
  | _ => false

def stepsBefore (i n : Nat) : Nat := Nat.count (fun j => loop.takesStep v₀ es i j = true) n

def exchangesBefore (i n : Nat) : Nat := Nat.count (fun j => loop.exchanges v₀ es i j = true) n

/-- Event `j` is a swap that succeeds. -/
def wins [DecidableEq ρ] (j : Nat) : Bool :=
  match es[j]? with
  | some (.step i) => decide (loop.program.machine.out (loop.poolAt v₀ es j) (.step i ()) = some loop.won)
  | _ => false

/-- The successes before event `n`. -/
def winsBefore [DecidableEq ρ] (n : Nat) : Nat := Nat.count (fun j => loop.wins v₀ es j = true) n

/-! ## One step -/

variable {loop v₀ es} {i j n : Nat} {call : CasCall A V ρ}

/-- Event `n` is a step of call `i`, at this place. -/
def StepOf (loop : CasLoop A V ρ) (v₀ : V) (es : List (CasEvent A)) (n i : Nat) (call : CasCall A V ρ) : Prop :=
  es[n]? = some (.step i) ∧ (loop.poolAt v₀ es n).threads[i]? = some call

theorem takesStep_iff : loop.takesStep v₀ es i n = true ↔ ∃ call, loop.StepOf v₀ es n i call := by
  unfold takesStep StepOf
  constructor
  · intro h
    split at h
    · next i' he =>
      rw [Bool.and_eq_true, decide_eq_true_iff] at h
      obtain ⟨rfl, hsome⟩ := h
      obtain ⟨call, hcall⟩ := Option.isSome_iff_exists.1 hsome
      exact ⟨call, he, hcall⟩
    · cases h
  · rintro ⟨call, he, hcall⟩
    simp [he, hcall]

theorem exchanges_of_stepOf (h : loop.StepOf v₀ es n i call) : loop.exchanges v₀ es i n = call.isExchange := by
  unfold exchanges
  rw [h.1, h.2]
  simp

theorem takesStep_of_exchanges (h : loop.exchanges v₀ es i n = true) : loop.takesStep v₀ es i n = true := by
  unfold exchanges at h
  unfold takesStep
  split at h
  · next i' he =>
    rw [Bool.and_eq_true] at h
    cases hcall : (loop.poolAt v₀ es n).threads[i]? with
    | none =>
      rw [hcall] at h
      cases h.2
    | some call => simp [h.1]
  · cases h

theorem poolAt_succ {e : CasEvent A} (he : es[n]? = some e) :
    loop.poolAt v₀ es (n + 1) = loop.program.machine.step (loop.poolAt v₀ es n) e.inPool := by
  refine Machine.run_take_succ _ _ ?_
  rw [List.getElem?_map, he]
  rfl

theorem poolAt_succ_of_none (he : es[n]? = none) : loop.poolAt v₀ es (n + 1) = loop.poolAt v₀ es n := by
  have hlength : (es.map (@CasEvent.inPool A V ρ)).length ≤ n := by
    rw [List.length_map]
    exact List.getElem?_eq_none_iff.1 he
  unfold poolAt
  rw [List.take_of_length_le (Nat.le_succ_of_le hlength), List.take_of_length_le hlength]

theorem valueAt_succ (h : loop.StepOf v₀ es n i call) :
    loop.valueAt v₀ es (n + 1) = (loop.next (loop.valueAt v₀ es n) call).1 := by
  unfold valueAt
  rw [poolAt_succ h.1]
  exact congrArg Pool.shared (loop.program.machine_step h.2 ()).1

/-- An event that is no step of the call leaves it where it is. -/
theorem getElem?_poolAt_succ_of_ne (hcall : (loop.poolAt v₀ es n).threads[i]? = some call)
    (hquiet : loop.takesStep v₀ es i n = false) : (loop.poolAt v₀ es (n + 1)).threads[i]? = some call := by
  cases he : es[n]? with
  | none =>
    rw [poolAt_succ_of_none he]
    exact hcall
  | some e =>
    rw [poolAt_succ he]
    refine loop.program.getElem?_step_of_ne hcall (fun input heq => ?_)
    cases e with
    | call request => cases heq
    | step i' =>
      cases heq
      rw [takesStep_iff.2 ⟨call, he, hcall⟩] at hquiet
      cases hquiet

theorem getElem?_poolAt_succ (h : loop.StepOf v₀ es n i call) :
    (loop.poolAt v₀ es (n + 1)).threads[i]? = some (loop.next (loop.valueAt v₀ es n) call).2.1 := by
  rw [poolAt_succ h.1]
  exact loop.program.getElem?_step_self h.2 ()

/-- A call that is there after an event was there before, or is the one that the event makes. -/
theorem getElem?_of_poolAt_succ (h : (loop.poolAt v₀ es (n + 1)).threads[i]? = some call) :
    (∃ call', (loop.poolAt v₀ es n).threads[i]? = some call') ∨
      (loop.poolAt v₀ es n).threads[i]? = none ∧ i = (loop.poolAt v₀ es n).threads.length ∧
        ∃ request, es[n]? = some (.call request) ∧ call = .load request 0 := by
  cases hbefore : (loop.poolAt v₀ es n).threads[i]? with
  | some call' => exact Or.inl ⟨call', rfl⟩
  | none =>
    refine Or.inr ⟨rfl, ?_⟩
    cases he : es[n]? with
    | none =>
      rw [poolAt_succ_of_none he, hbefore] at h
      cases h
    | some e =>
      rw [poolAt_succ he] at h
      cases e with
      | call request =>
        rcases getElem?_concat h with hold | ⟨rfl, rfl⟩
        · cases hbefore.symm.trans hold
        · exact ⟨rfl, request, rfl, rfl⟩
      | step i' =>
        have hthreads : (loop.program.machine.step (loop.poolAt v₀ es n) (.step i' ())).threads[i]? = none := by
          cases hstep : (loop.poolAt v₀ es n).threads[i']? with
          | none => rw [(loop.program.machine_step_none hstep ()).1, hbefore]
          | some call' =>
            rw [(loop.program.machine_step hstep ()).1]
            have hne : i' ≠ i := by
              rintro rfl
              cases hbefore.symm.trans hstep
            exact (List.getElem?_set_ne hne).trans hbefore
        cases hthreads.symm.trans h

/-! ## The calls -/

/-- The call that an event makes is the one of its request. -/
theorem request_of_call {request : A} (he : es[n]? = some (.call request)) :
    (requests es)[(loop.poolAt v₀ es n).threads.length]? = some request := by
  have hlength : (loop.poolAt v₀ es n).threads.length = (requests (es.take n)).length := by
    unfold poolAt
    rw [loop.program.length_threads_run, ← List.map_take, spawned_map, List.length_map]
  have hsplit : es = es.take n ++ .call request :: es.drop (n + 1) := by
    obtain ⟨hn, hget⟩ := List.getElem?_eq_some_iff.1 he
    rw [← hget, List.getElem_cons_drop, List.take_append_drop]
  rw [hlength]
  have hrequests := congrArg requests hsplit
  rw [requests_append] at hrequests
  rw [hrequests, List.getElem?_append_right (Nat.le_refl _), Nat.sub_self]
  rfl

theorem stepsBefore_succ (loop : CasLoop A V ρ) (v₀ : V) (es : List (CasEvent A)) (i n : Nat) :
    loop.stepsBefore v₀ es i (n + 1) = loop.stepsBefore v₀ es i n + if loop.takesStep v₀ es i n = true then 1 else 0 :=
  Nat.count_succ _ n

theorem exchangesBefore_succ (loop : CasLoop A V ρ) (v₀ : V) (es : List (CasEvent A)) (i n : Nat) :
    loop.exchangesBefore v₀ es i (n + 1) =
      loop.exchangesBefore v₀ es i n + if loop.exchanges v₀ es i n = true then 1 else 0 :=
  Nat.count_succ _ n

/-- What is known of a call before event `n`: its request, and how often it has tried. -/
def CallFacts (loop : CasLoop A V ρ) (v₀ : V) (es : List (CasEvent A)) (n i : Nat) : CasCall A V ρ → Prop
  | .load request failed =>
    (requests es)[i]? = some request ∧ failed < loop.maxTries ∧ loop.exchangesBefore v₀ es i n = failed ∧
      loop.stepsBefore v₀ es i n = 2 * failed
  | .exchange request failed current new =>
    (requests es)[i]? = some request ∧ failed < loop.maxTries ∧ loop.exchangesBefore v₀ es i n = failed ∧
      loop.stepsBefore v₀ es i n = 2 * failed + 1 ∧ loop.attempt request current = .swap new
  | .done _ => loop.exchangesBefore v₀ es i n ≤ loop.maxTries

theorem counts_of_quiet (hquiet : loop.takesStep v₀ es i n = false) :
    loop.stepsBefore v₀ es i (n + 1) = loop.stepsBefore v₀ es i n ∧
      loop.exchangesBefore v₀ es i (n + 1) = loop.exchangesBefore v₀ es i n := by
  have hno : loop.exchanges v₀ es i n = false :=
    Bool.eq_false_iff.2 (fun h => by rw [takesStep_of_exchanges h] at hquiet; cases hquiet)
  rw [stepsBefore_succ, exchangesBefore_succ, hquiet, hno]
  exact ⟨rfl, rfl⟩

theorem CallFacts.later (h : loop.CallFacts v₀ es n i call) (hquiet : loop.takesStep v₀ es i n = false) :
    loop.CallFacts v₀ es (n + 1) i call := by
  obtain ⟨hsteps, hexchanges⟩ := counts_of_quiet hquiet
  cases call with
  | load request failed =>
    unfold CallFacts at h ⊢
    rwa [hsteps, hexchanges]
  | exchange request failed current new =>
    unfold CallFacts at h ⊢
    rwa [hsteps, hexchanges]
  | done result =>
    unfold CallFacts at h ⊢
    rwa [hexchanges]

/-- **A step takes a call to its next try, or to its end.** -/
theorem CallFacts.next (h : loop.CallFacts v₀ es n i call) (hstep : loop.StepOf v₀ es n i call) :
    loop.CallFacts v₀ es (n + 1) i (loop.next (loop.valueAt v₀ es n) call).2.1 := by
  have hsteps : loop.stepsBefore v₀ es i (n + 1) = loop.stepsBefore v₀ es i n + 1 := by
    rw [stepsBefore_succ, takesStep_iff.2 ⟨call, hstep⟩, if_pos rfl]
  have hexchanges : loop.exchangesBefore v₀ es i (n + 1) =
      loop.exchangesBefore v₀ es i n + if call.isExchange = true then 1 else 0 := by
    rw [exchangesBefore_succ, exchanges_of_stepOf hstep]
  cases call with
  | load request failed =>
    obtain ⟨hrequest, hfailed, hcount, hcountSteps⟩ := h
    have hsame : loop.exchangesBefore v₀ es i (n + 1) = failed := hexchanges.trans hcount
    unfold CasLoop.next
    dsimp only
    split
    · exact Nat.le_of_lt (hsame ▸ hfailed)
    · next new hattempt => exact ⟨hrequest, hfailed, hsame, by omega, hattempt⟩
  | exchange request failed current new =>
    obtain ⟨hrequest, hfailed, hcount, hcountSteps, -⟩ := h
    have hmore : loop.exchangesBefore v₀ es i (n + 1) = failed + 1 := by
      rw [hexchanges, hcount]
      rfl
    have hend : loop.exchangesBefore v₀ es i (n + 1) ≤ loop.maxTries := hmore ▸ hfailed
    unfold CasLoop.next
    dsimp only
    split
    · exact hend
    · split
      · exact hend
      · next hmaxTries => exact ⟨hrequest, Nat.lt_of_not_le hmaxTries, hmore, by omega⟩
  | done result =>
    show loop.exchangesBefore v₀ es i (n + 1) ≤ loop.maxTries
    rw [hexchanges]
    exact h

/-- **The facts of the calls**, in every run. -/
theorem callFacts_at (loop : CasLoop A V ρ) (v₀ : V) (es : List (CasEvent A)) (n : Nat) :
    (∀ i call, (loop.poolAt v₀ es n).threads[i]? = some call → loop.CallFacts v₀ es n i call) ∧
      ∀ i, (loop.poolAt v₀ es n).threads[i]? = none →
        loop.stepsBefore v₀ es i n = 0 ∧ loop.exchangesBefore v₀ es i n = 0 := by
  induction n with
  | zero => exact ⟨fun i call hcall => (by cases hcall), fun i _ => ⟨rfl, rfl⟩⟩
  | succ n ih =>
    refine ⟨fun i call hcall => ?_, fun i hnone => ?_⟩
    · rcases getElem?_of_poolAt_succ hcall with ⟨call', hbefore⟩ | ⟨hbefore, rfl, request, he, rfl⟩
      · cases hquiet : loop.takesStep v₀ es i n with
        | false =>
          cases (getElem?_poolAt_succ_of_ne hbefore hquiet).symm.trans hcall
          exact (ih.1 i _ hbefore).later hquiet
        | true =>
          obtain ⟨call', hstep⟩ := takesStep_iff.1 hquiet
          cases (getElem?_poolAt_succ hstep).symm.trans hcall
          exact (ih.1 i _ hstep.2).next hstep
      · have hquiet : loop.takesStep v₀ es (loop.poolAt v₀ es n).threads.length n = false := by
          unfold takesStep
          rw [he]
        obtain ⟨hsteps, hexchanges⟩ := counts_of_quiet hquiet
        obtain ⟨hstepsZero, hexchangesZero⟩ := ih.2 _ hbefore
        exact ⟨request_of_call he, loop.maxTries_pos, hexchanges.trans hexchangesZero, hsteps.trans hstepsZero⟩
    · have hquiet : loop.takesStep v₀ es i n = false := by
        refine Bool.eq_false_iff.2 (fun htakes => ?_)
        obtain ⟨call, hstep⟩ := takesStep_iff.1 htakes
        cases (getElem?_poolAt_succ hstep).symm.trans hnone
      have hbefore : (loop.poolAt v₀ es n).threads[i]? = none := by
        cases hcall : (loop.poolAt v₀ es n).threads[i]? with
        | none => rfl
        | some call => cases (getElem?_poolAt_succ_of_ne hcall hquiet).symm.trans hnone
      obtain ⟨hsteps, hexchanges⟩ := counts_of_quiet hquiet
      rw [hsteps, hexchanges]
      exact ih.2 i hbefore

/-- **A call tries no more often than it may.** -/
theorem exchangesBefore_le (loop : CasLoop A V ρ) (v₀ : V) (es : List (CasEvent A)) (i n : Nat) :
    loop.exchangesBefore v₀ es i n ≤ loop.maxTries := by
  cases hcall : (loop.poolAt v₀ es n).threads[i]? with
  | none =>
    rw [((callFacts_at loop v₀ es n).2 i hcall).2]
    exact Nat.zero_le _
  | some call =>
    have hfacts := (callFacts_at loop v₀ es n).1 i call hcall
    cases call with
    | load request failed => exact Nat.le_of_lt (hfacts.2.2.1 ▸ hfacts.2.1)
    | exchange request failed current new => exact Nat.le_of_lt (hfacts.2.2.1 ▸ hfacts.2.1)
    | done result => exact hfacts

/-- **A call that has taken two steps for each try has ended.** -/
theorem done_of_steps (hcall : (loop.poolAt v₀ es n).threads[i]? = some call)
    (h : 2 * loop.maxTries ≤ loop.stepsBefore v₀ es i n) : ∃ result, call = .done result := by
  have hfacts := (callFacts_at loop v₀ es n).1 i call hcall
  cases call with
  | load request failed =>
    obtain ⟨-, hfailed, -, hsteps⟩ := hfacts
    omega
  | exchange request failed current new =>
    obtain ⟨-, hfailed, -, hsteps, -⟩ := hfacts
    omega
  | done result => exact ⟨result, rfl⟩

/-! ## The value -/

variable [DecidableEq ρ]

theorem wins_of_stepOf (h : loop.StepOf v₀ es n i call) :
    loop.wins v₀ es n = decide ((loop.next (loop.valueAt v₀ es n) call).2.2 = some loop.won) := by
  unfold wins
  rw [h.1]
  dsimp only
  rw [(loop.program.machine_step h.2 ()).2]
  rfl

/-- A success is a step of a call, and a swap of the value that it loaded. -/
theorem exists_of_wins (h : loop.wins v₀ es n = true) :
    ∃ i request failed new, loop.StepOf v₀ es n i (.exchange request failed (loop.valueAt v₀ es n) new) := by
  have hstep : ∃ i call, loop.StepOf v₀ es n i call := by
    unfold wins at h
    split at h
    · next i he =>
      cases hcall : (loop.poolAt v₀ es n).threads[i]? with
      | none =>
        rw [decide_eq_true_iff, (loop.program.machine_step_none hcall ()).2] at h
        cases h
      | some call => exact ⟨i, call, he, hcall⟩
    · cases h
  obtain ⟨i, call, hstep⟩ := hstep
  rw [wins_of_stepOf hstep, decide_eq_true_iff] at h
  cases call with
  | load request failed =>
    unfold next at h
    dsimp only at h
    split at h
    · next result hattempt => exact absurd (Option.some.inj h) (loop.stop_ne _ _ _ hattempt)
    · cases h
  | exchange request failed current new =>
    unfold next at h
    dsimp only at h
    split at h
    · next hcurrent =>
      subst hcurrent
      exact ⟨i, request, failed, new, hstep⟩
    · split at h
      · exact absurd (Option.some.inj h) loop.lost_ne
      · cases h
  | done result => cases h

/-- **A success is one atomic step**: from the value that stands there, by a call that decides on it to swap it. -/
theorem wins_spec (h : loop.wins v₀ es n = true) :
    ∃ i request new, es[n]? = some (.step i) ∧ (requests es)[i]? = some request ∧
      loop.attempt request (loop.valueAt v₀ es n) = .swap new ∧ loop.valueAt v₀ es (n + 1) = new := by
  obtain ⟨i, request, failed, new, hstep⟩ := exists_of_wins h
  obtain ⟨hrequest, -, -, -, hattempt⟩ := (callFacts_at loop v₀ es n).1 i _ hstep.2
  refine ⟨i, request, new, hstep.1, hrequest, hattempt, ?_⟩
  rw [valueAt_succ hstep]
  simp [next]

/-- Without a success the value stays. -/
theorem valueAt_of_not_wins (h : loop.wins v₀ es n = false) : loop.valueAt v₀ es (n + 1) = loop.valueAt v₀ es n := by
  cases he : es[n]? with
  | none =>
    unfold valueAt
    rw [poolAt_succ_of_none he]
  | some e =>
    cases e with
    | call request =>
      unfold valueAt
      rw [poolAt_succ he]
      rfl
    | step i =>
      cases hcall : (loop.poolAt v₀ es n).threads[i]? with
      | none =>
        unfold valueAt
        rw [poolAt_succ he]
        exact congrArg Pool.shared (loop.program.machine_step_none hcall ()).1
      | some call =>
        have hstep : loop.StepOf v₀ es n i call := ⟨he, hcall⟩
        rw [wins_of_stepOf hstep, decide_eq_false_iff_not] at h
        rw [valueAt_succ hstep]
        cases call with
        | load request failed =>
          unfold next
          dsimp only
          split
          · rfl
          · rfl
        | exchange request failed current new =>
          unfold next at h ⊢
          dsimp only at h ⊢
          split
          · next hcurrent =>
            rw [if_pos hcurrent] at h
            exact absurd rfl h
          · split
            · rfl
            · rfl
        | done result => rfl

theorem winsBefore_succ (loop : CasLoop A V ρ) (v₀ : V) (es : List (CasEvent A)) (n : Nat) :
    loop.winsBefore v₀ es (n + 1) = loop.winsBefore v₀ es n + if loop.wins v₀ es n = true then 1 else 0 :=
  Nat.count_succ _ n

theorem winsBefore_mono (loop : CasLoop A V ρ) (v₀ : V) (es : List (CasEvent A)) {m n : Nat} (h : m ≤ n) :
    loop.winsBefore v₀ es m ≤ loop.winsBefore v₀ es n := Nat.count_monotone _ h

/-- After the last event there are no more. -/
theorem winsBefore_le (loop : CasLoop A V ρ) (v₀ : V) (es : List (CasEvent A)) (n : Nat) :
    loop.winsBefore v₀ es n ≤ loop.winsBefore v₀ es es.length := by
  rcases Nat.le_total n es.length with hle | hle
  · exact winsBefore_mono loop v₀ es hle
  · induction n, hle using Nat.le_induction with
    | base => exact Nat.le_refl _
    | succ n hle ih =>
      have hnot : loop.wins v₀ es n = false := by
        unfold wins
        rw [List.getElem?_eq_none_iff.2 hle]
      rw [winsBefore_succ, hnot]
      exact ih

/-- **What a success keeps of the value and its number holds in every run.** -/
theorem value_at (I : Nat → V → Prop) (h₀ : I 0 v₀)
    (hstep : ∀ k v request new, I k v → loop.attempt request v = .swap new → I (k + 1) new) (n : Nat) :
    I (loop.winsBefore v₀ es n) (loop.valueAt v₀ es n) := by
  induction n with
  | zero => exact h₀
  | succ n ih =>
    rw [winsBefore_succ]
    cases hwins : loop.wins v₀ es n with
    | true =>
      obtain ⟨i, request, new, -, -, hattempt, hvalue⟩ := wins_spec hwins
      rw [if_pos rfl, hvalue]
      exact hstep _ _ request new ih hattempt
    | false =>
      rw [if_neg Bool.false_ne_true, valueAt_of_not_wins hwins]
      exact ih

end
end CasLoop
end Lib
end Kirino
