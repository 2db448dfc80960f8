import Kirino.Lib.Machine
/-!
# Threads — calls in flight over a shared state

A pool is a shared state and the calls made so far, each at its place.  An event starts a call, lets one call take its
next step, or is an operation of the environment.  The rule for safety is that of Owicki and Gries: an invariant of the
shared state and a fact about each call hold in every run when a call's step keeps the invariant and its own fact, and
leaves the facts of the other calls alone (`PoolInv.step`).  A call between whose steps nothing else happens is `alone`.
The steps of a run on fixed events are checked by evaluating it (`StepsAt.check`).
-/
namespace Kirino
namespace Lib

theorem getElem?_concat {τ : Type} {l : List τ} {t x : τ} {i : Nat} (h : (l ++ [t])[i]? = some x) :
    l[i]? = some x ∨ i = l.length ∧ x = t := by
  rw [List.getElem?_append] at h
  split at h
  · exact Or.inl h
  · rename_i hlt
    obtain ⟨hi, hx⟩ := List.getElem?_eq_some_iff.1 h
    simp only [List.length_singleton] at hi
    have hzero : i - l.length = 0 := by omega
    rw [hzero] at h
    exact Or.inr ⟨by omega, (Option.some.inj h).symm⟩

structure Pool (σ τ : Type) where
  shared : σ
  threads : List τ

inductive PoolEvent (τ α ε : Type) where
  | spawn (t : τ)
  | step (i : Nat) (input : α)
  | env (e : ε)

/-- What a call's step and an operation of the environment make of the shared state, and what they answer. -/
structure Program (σ τ α ε ο : Type) where
  next : Nat → α → σ → τ → σ × τ × ο
  env : ε → σ → σ × ο
  idle : ο

namespace Program

variable {σ τ α ε ο : Type} (prog : Program σ τ α ε ο)

def poolStep (p : Pool σ τ) : PoolEvent τ α ε → Pool σ τ × ο
  | .spawn t => ({ p with threads := p.threads ++ [t] }, prog.idle)
  | .step i input =>
    match p.threads[i]? with
    | some t =>
      let (shared, t', o) := prog.next i input p.shared t
      (⟨shared, p.threads.set i t'⟩, o)
    | none => (p, prog.idle)
  | .env e =>
    let (shared, o) := prog.env e p.shared
    ({ p with shared }, o)

/-- The pool as a machine. -/
def machine : Machine (Pool σ τ) (PoolEvent τ α ε) ο where
  step p e := (prog.poolStep p e).1
  out p e := (prog.poolStep p e).2

@[simp] theorem machine_spawn (p : Pool σ τ) (t : τ) :
    prog.machine.step p (.spawn t) = { p with threads := p.threads ++ [t] } := rfl

theorem machine_step {p : Pool σ τ} {i : Nat} {t : τ} (ht : p.threads[i]? = some t) (input : α) :
    prog.machine.step p (.step i input) =
        ⟨(prog.next i input p.shared t).1, p.threads.set i (prog.next i input p.shared t).2.1⟩ ∧
      prog.machine.out p (.step i input) = (prog.next i input p.shared t).2.2 := by
  unfold machine poolStep
  dsimp only
  rw [ht]
  exact ⟨rfl, rfl⟩

theorem machine_step_none {p : Pool σ τ} {i : Nat} (ht : p.threads[i]? = none) (input : α) :
    prog.machine.step p (.step i input) = p ∧ prog.machine.out p (.step i input) = prog.idle := by
  unfold machine poolStep
  dsimp only
  rw [ht]
  exact ⟨rfl, rfl⟩

theorem getElem?_step_self {p : Pool σ τ} {i : Nat} {t : τ} (ht : p.threads[i]? = some t) (input : α) :
    (prog.machine.step p (.step i input)).threads[i]? = some (prog.next i input p.shared t).2.1 := by
  rw [(prog.machine_step ht input).1]
  exact List.getElem?_set_self (List.getElem?_eq_some_iff.1 ht).1

/-- A call stays at its place through the events that are not its steps. -/
theorem getElem?_step_of_ne {p : Pool σ τ} {e : PoolEvent τ α ε} {i : Nat} {t : τ} (ht : p.threads[i]? = some t)
    (hother : ∀ input, e ≠ .step i input) : (prog.machine.step p e).threads[i]? = some t := by
  cases e with
  | spawn t' => exact (List.getElem?_append_left (List.getElem?_eq_some_iff.1 ht).1).trans ht
  | env e => exact ht
  | step j input =>
    have hne : j ≠ i := fun h => hother input (h ▸ rfl)
    cases hj : p.threads[j]? with
    | none => rwa [(prog.machine_step_none hj input).1]
    | some t' =>
      rw [(prog.machine_step hj input).1]
      exact (List.getElem?_set_ne hne).trans ht

@[simp] theorem machine_env (p : Pool σ τ) (e : ε) :
    prog.machine.step p (.env e) = { p with shared := (prog.env e p.shared).1 } := rfl

/-! ## The calls made -/

/-- The calls that the events start, in order. -/
def spawned : List (PoolEvent τ α ε) → List τ
  | [] => []
  | .spawn t :: es => t :: spawned es
  | _ :: es => spawned es

theorem spawned_append : ∀ es fs : List (PoolEvent τ α ε), spawned (es ++ fs) = spawned es ++ spawned fs
  | [], _ => rfl
  | .spawn t :: es, fs => congrArg (t :: ·) (spawned_append es fs)
  | .step _ _ :: es, fs => spawned_append es fs
  | .env _ :: es, fs => spawned_append es fs

theorem getElem?_spawned_append {es : List (PoolEvent τ α ε)} {i : Nat} {t : τ} (h : (spawned es)[i]? = some t)
    (fs : List (PoolEvent τ α ε)) : (spawned (es ++ fs))[i]? = some t := by
  rw [spawned_append, List.getElem?_append_left (List.getElem?_eq_some_iff.1 h).1]
  exact h

/-- An event adds the call it starts to the pool. -/
theorem length_threads_step (p : Pool σ τ) (e : PoolEvent τ α ε) :
    (prog.machine.step p e).threads.length = p.threads.length + (spawned [e]).length := by
  cases e with
  | spawn t => simp [spawned]
  | step i input =>
    cases ht : p.threads[i]? with
    | none => simp [(prog.machine_step_none ht input).1, spawned]
    | some t => simp [(prog.machine_step ht input).1, spawned]
  | env x => rfl

/-- **The pool has a call for every call made.** -/
theorem length_threads_run (s : σ) (es : List (PoolEvent τ α ε)) :
    (prog.machine.run ⟨s, []⟩ es).threads.length = (spawned es).length := by
  induction es using List.reverseRecOn with
  | nil => rfl
  | append_singleton es e ih =>
    rw [prog.machine.run_append, spawned_append, List.length_append, ← ih]
    exact prog.length_threads_step _ e

/-! ## The steps of one call -/

/-- Event `j` of the run is a step of call `i`, at place `t`. -/
def StepsAt (p₀ : Pool σ τ) (es : List (PoolEvent τ α ε)) (j i : Nat) (input : α) (t : τ) : Prop :=
  es[j]? = some (.step i input) ∧ (prog.machine.run p₀ (es.take j)).threads[i]? = some t

/-- The event is no step, or one of a call at a place that the test accepts. -/
def checkStep (test : Nat → τ → Bool) (p : Pool σ τ) : PoolEvent τ α ε → Bool
  | .step i _ => (p.threads[i]?).all (test i)
  | _ => true

/-- Every step of the run, numbered from `n` on, passes the test. -/
def checkSteps (test : Nat → Nat → τ → Bool) : Nat → Pool σ τ → List (PoolEvent τ α ε) → Bool
  | _, _, [] => true
  | n, p, e :: es => checkStep (test n) p e && checkSteps test (n + 1) (prog.machine.step p e) es

variable {prog} {p₀ : Pool σ τ} {es : List (PoolEvent τ α ε)} {i j : Nat} {input : α} {t : τ}

theorem StepsAt.cons {e : PoolEvent τ α ε} (h : prog.StepsAt p₀ (e :: es) j i input t) :
    j = 0 ∧ e = .step i input ∧ p₀.threads[i]? = some t ∨
      ∃ k, j = k + 1 ∧ prog.StepsAt (prog.machine.step p₀ e) es k i input t := by
  cases j with
  | zero => exact Or.inl ⟨rfl, Option.some.inj h.1, h.2⟩
  | succ k => exact Or.inr ⟨k, rfl, h⟩

theorem StepsAt.check_at {test : Nat → Nat → τ → Bool} : ∀ {es : List (PoolEvent τ α ε)} {p₀ : Pool σ τ} {n j : Nat},
    prog.checkSteps test n p₀ es = true → prog.StepsAt p₀ es j i input t → test (n + j) i t = true
  | [], _, _, _, _, h => by cases h.1
  | e :: es, p₀, n, j, hcheck, h => by
    rw [checkSteps, Bool.and_eq_true] at hcheck
    obtain ⟨hhead, hrest⟩ := hcheck
    rcases h.cons with ⟨rfl, rfl, ht⟩ | ⟨k, rfl, hk⟩
    · rw [checkStep, ht] at hhead
      exact hhead
    · have htest := check_at hrest hk
      rwa [Nat.add_right_comm] at htest

/-- **What a run is checked for holds of its steps.** -/
theorem StepsAt.check {test : Nat → Nat → τ → Bool} (h : prog.StepsAt p₀ es j i input t)
    (hcheck : prog.checkSteps test 0 p₀ es = true) : test j i t = true := by
  have htest := check_at hcheck h
  rwa [Nat.zero_add] at htest

theorem StepsAt.lt_length (h : prog.StepsAt p₀ es j i input t) : j < es.length := (List.getElem?_eq_some_iff.1 h.1).1

/-- An event is a step of one call, from one place. -/
theorem StepsAt.unique (h : prog.StepsAt p₀ es j i input t) {i' : Nat} {input' : α} {t' : τ}
    (h' : prog.StepsAt p₀ es j i' input' t') : i = i' ∧ input = input' ∧ t = t' := by
  obtain ⟨rfl, rfl⟩ := PoolEvent.step.inj (Option.some.inj (h.1.symm.trans h'.1))
  exact ⟨rfl, rfl, Option.some.inj (h.2.symm.trans h'.2)⟩

theorem StepsAt.out (h : prog.StepsAt p₀ es j i input t) : prog.machine.out (prog.machine.run p₀ (es.take j)) (.step i input) =
    (prog.next i input (prog.machine.run p₀ (es.take j)).shared t).2.2 :=
  (prog.machine_step h.2 input).2

/-- An event that is answered is a step of a call. -/
theorem exists_stepsAt (he : es[j]? = some (.step i input)) {o : ο}
    (hout : prog.machine.out (prog.machine.run p₀ (es.take j)) (.step i input) = o) (ho : prog.idle ≠ o) :
    ∃ t, prog.StepsAt p₀ es j i input t ∧ (prog.next i input (prog.machine.run p₀ (es.take j)).shared t).2.2 = o := by
  cases ht : (prog.machine.run p₀ (es.take j)).threads[i]? with
  | none => exact absurd ((prog.machine_step_none ht input).2.symm.trans hout) ho
  | some t =>
    have hsteps : prog.StepsAt p₀ es j i input t := ⟨he, ht⟩
    exact ⟨t, hsteps, hsteps.out.symm.trans hout⟩

theorem StepsAt.append (h : prog.StepsAt p₀ es j i input t) (fs : List (PoolEvent τ α ε)) :
    prog.StepsAt p₀ (es ++ fs) j i input t := by
  unfold StepsAt
  rw [List.getElem?_append_left h.lt_length, List.take_append_of_le_length (Nat.le_of_lt h.lt_length)]
  exact h

theorem stepsAt_concat {e : PoolEvent τ α ε} (h : prog.StepsAt p₀ (es ++ [e]) j i input t) :
    prog.StepsAt p₀ es j i input t ∨
      j = es.length ∧ e = .step i input ∧ (prog.machine.run p₀ es).threads[i]? = some t := by
  obtain ⟨he, ht⟩ := h
  rcases getElem?_concat he with hold | ⟨rfl, rfl⟩
  · rw [List.take_append_of_le_length (Nat.le_of_lt (List.getElem?_eq_some_iff.1 hold).1)] at ht
    exact Or.inl ⟨hold, ht⟩
  · rw [List.take_left] at ht
    exact Or.inr ⟨rfl, rfl, ht⟩

/-- The step that comes last. -/
theorem stepsAt_last (ht : (prog.machine.run p₀ es).threads[i]? = some t) (input : α) :
    prog.StepsAt p₀ (es ++ [.step i input]) es.length i input t := by
  unfold StepsAt
  rw [List.take_left]
  exact ⟨List.getElem?_concat_length, ht⟩

/-- A step of the run is one of every part of it that is long enough. -/
theorem StepsAt.take (h : prog.StepsAt p₀ es j i input t) {n : Nat} (hj : j < n) :
    prog.StepsAt p₀ (es.take n) j i input t := by
  unfold StepsAt
  rw [List.getElem?_take_of_lt hj, List.take_take, Nat.min_eq_left (Nat.le_of_lt hj)]
  exact h

theorem StepsAt.of_take {n : Nat} (h : prog.StepsAt p₀ (es.take n) j i input t) : prog.StepsAt p₀ es j i input t := by
  rw [← List.take_append_drop n es]
  exact h.append (es.drop n)

/-- Only a call that is made takes steps. -/
theorem StepsAt.lt_spawned {s : σ} (h : prog.StepsAt ⟨s, []⟩ es j i input t) : i < (spawned es).length := by
  have hi := (List.getElem?_eq_some_iff.1 h.2).1
  rw [prog.length_threads_run] at hi
  rw [← List.take_append_drop j es, spawned_append, List.length_append]
  exact Nat.lt_add_right _ hi

theorem spawned_of_take {n : Nat} (h : (spawned (es.take n))[i]? = some t) : (spawned es)[i]? = some t := by
  rw [← List.take_append_drop n es]
  exact getElem?_spawned_append h (es.drop n)

/-! ## A call on its own -/

/-- A call takes its steps, `fuel` of them at most, with no other event between them, until one gives an answer. -/
def alone {ω : Type} (prog : Program σ τ α ε (Option ω)) (i : Nat) (input : α) : Nat → σ → τ → σ × Option ω
  | 0, s, _ => (s, none)
  | fuel + 1, s, t =>
    match prog.next i input s t with
    | (s', _, some o) => (s', some o)
    | (s', t', none) => alone prog i input fuel s' t'

theorem alone_of_answer {ω : Type} {prog : Program σ τ α ε (Option ω)} {s s' : σ} {t t' : τ} {o : ω} (fuel : Nat)
    (h : prog.next i input s t = (s', t', some o)) : prog.alone i input (fuel + 1) s t = (s', some o) := by
  unfold alone
  rw [h]

theorem alone_of_none {ω : Type} {prog : Program σ τ α ε (Option ω)} {s s' : σ} {t t' : τ} (fuel : Nat)
    (h : prog.next i input s t = (s', t', none)) :
    prog.alone i input (fuel + 1) s t = prog.alone i input fuel s' t' := by
  conv_lhs => unfold alone
  rw [h]

end Program

section Invariant
variable {σ τ α ε ο : Type}

/-- An invariant of the shared state, and a fact about every call. -/
def PoolInv (J : σ → Prop) (L : Nat → σ → τ → Prop) (p : Pool σ τ) : Prop :=
  J p.shared ∧ ∀ i t, p.threads[i]? = some t → L i p.shared t

/-- A pool with no call yet. -/
theorem PoolInv.empty {J : σ → Prop} (L : Nat → σ → τ → Prop) {s : σ} (h : J s) : PoolInv J L ⟨s, []⟩ :=
  ⟨h, fun _ _ ht => by cases ht⟩

theorem getElem?_set_cases {l : List τ} {t x : τ} {i j : Nat} (h : (l.set i t)[j]? = some x) :
    j = i ∧ x = t ∨ j ≠ i ∧ l[j]? = some x := by
  by_cases hji : j = i
  · subst hji
    have hlt := (List.getElem?_eq_some_iff.1 h).1
    rw [List.length_set] at hlt
    rw [List.getElem?_set_self hlt] at h
    exact Or.inl ⟨rfl, (Option.some.inj h).symm⟩
  · rw [List.getElem?_set_ne (Ne.symm hji)] at h
    exact Or.inr ⟨hji, h⟩

/-- **The rule of Owicki and Gries**, over one event.  `J'` and `L'` are what holds after it. -/
theorem PoolInv.step {prog : Program σ τ α ε ο} {J J' : σ → Prop} {L L' : Nat → σ → τ → Prop} {p : Pool σ τ}
    (h : PoolInv J L p) (e : PoolEvent τ α ε)
    (hspawn : ∀ t, e = .spawn t → J' p.shared ∧ L' p.threads.length p.shared t ∧
      ∀ j t', L j p.shared t' → L' j p.shared t')
    (hnext : ∀ i input t, e = .step i input → p.threads[i]? = some t → L i p.shared t →
      J' (prog.next i input p.shared t).1 ∧
        L' i (prog.next i input p.shared t).1 (prog.next i input p.shared t).2.1 ∧
        ∀ j t', j ≠ i → p.threads[j]? = some t' → L j p.shared t' → L' j (prog.next i input p.shared t).1 t')
    (hnone : ∀ i input, e = .step i input → p.threads[i]? = none →
      J' p.shared ∧ ∀ j t', L j p.shared t' → L' j p.shared t')
    (henv : ∀ x, e = .env x → J' (prog.env x p.shared).1 ∧
      ∀ j t', p.threads[j]? = some t' → L j p.shared t' → L' j (prog.env x p.shared).1 t') :
    PoolInv J' L' (prog.machine.step p e) := by
  cases e with
  | spawn t =>
    obtain ⟨hJ, hL, hkeep⟩ := hspawn t rfl
    refine ⟨hJ, fun i t' ht' => ?_⟩
    rcases getElem?_concat ht' with ht' | ⟨rfl, rfl⟩
    · exact hkeep i t' (h.2 i t' ht')
    · exact hL
  | step i input =>
    cases ht : p.threads[i]? with
    | none =>
      obtain ⟨hJ, hkeep⟩ := hnone i input rfl ht
      rw [(prog.machine_step_none ht input).1]
      exact ⟨hJ, fun j t' ht' => hkeep j t' (h.2 j t' ht')⟩
    | some t =>
      obtain ⟨hJ, hL, hkeep⟩ := hnext i input t rfl ht (h.2 i t ht)
      rw [(prog.machine_step ht input).1]
      refine ⟨hJ, fun j t' ht' => ?_⟩
      rcases getElem?_set_cases ht' with ⟨rfl, rfl⟩ | ⟨hji, ht'⟩
      · exact hL
      · exact hkeep j t' hji ht' (h.2 j t' ht')
  | env x =>
    obtain ⟨hJ, hkeep⟩ := henv x rfl
    exact ⟨hJ, fun j t' ht' => hkeep j t' ht' (h.2 j t' ht')⟩

/-- **Facts with a date**: what holds of the shared state before event `n`, and what is known of a call by then, where
the state does not decide what is known of a call and what is known stays known until the call's next step. -/
structure Dated (prog : Program σ τ α ε ο) (s : σ) (es : List (PoolEvent τ α ε)) (J : Nat → σ → Prop)
    (L : Nat → Nat → τ → Prop) : Prop where
  start : J 0 s
  known : ∀ n i t, (∀ input t', ¬ prog.StepsAt ⟨s, []⟩ es n i input t') → L n i t → L (n + 1) i t
  idle : ∀ n w, (∀ i input t, ¬ prog.StepsAt ⟨s, []⟩ es n i input t) → J n w → J (n + 1) w
  spawn : ∀ n i t, es[n]? = some (.spawn t) → (Program.spawned es)[i]? = some t → L (n + 1) i t
  next : ∀ n i input t, prog.StepsAt ⟨s, []⟩ es n i input t →
    J n (prog.machine.run ⟨s, []⟩ (es.take n)).shared → L n i t →
      J (n + 1) (prog.next i input (prog.machine.run ⟨s, []⟩ (es.take n)).shared t).1 ∧
        L (n + 1) i (prog.next i input (prog.machine.run ⟨s, []⟩ (es.take n)).shared t).2.1
  env : ∀ n e w, es[n]? = some (.env e) → J n w → J n (prog.env e w).1

variable {prog : Program σ τ α ε ο} {s : σ} {es : List (PoolEvent τ α ε)} {J : Nat → σ → Prop} {L : Nat → Nat → τ → Prop}

/-- **The facts hold at their dates**, in every run. -/
theorem Dated.holds_at (h : Dated prog s es J L) (n : Nat) :
    PoolInv (J n) (fun i _ t => L n i t) (prog.machine.run ⟨s, []⟩ (es.take n)) := by
  induction n with
  | zero => exact PoolInv.empty _ h.start
  | succ n ih =>
    cases he : es[n]? with
    | none =>
      have hquiet : ∀ i input t, ¬ prog.StepsAt ⟨s, []⟩ es n i input t :=
        fun i input t hsteps => by cases he.symm.trans hsteps.1
      have hlength := List.getElem?_eq_none_iff.1 he
      rw [List.take_of_length_le (Nat.le_succ_of_le hlength), ← List.take_of_length_le hlength]
      exact ⟨h.idle n _ hquiet ih.1, fun i t ht => h.known n i t (hquiet i) (ih.2 i t ht)⟩
    | some e =>
      rw [prog.machine.run_take_succ _ he]
      refine PoolInv.step ih e ?_ ?_ ?_ ?_
      · rintro t rfl
        have hquiet : ∀ i input t', ¬ prog.StepsAt ⟨s, []⟩ es n i input t' :=
          fun i input t' hsteps => by cases he.symm.trans hsteps.1
        refine ⟨h.idle n _ hquiet ih.1, h.spawn n _ t he ?_, fun j t' => h.known n j t' (hquiet j)⟩
        rw [prog.length_threads_run]
        refine Program.spawned_of_take (n := n + 1) ?_
        rw [List.take_add_one, he, Program.spawned_append]
        exact List.getElem?_concat_length
      · rintro i input t rfl ht hL
        obtain ⟨hJ, hL'⟩ := h.next n i input t ⟨he, ht⟩ ih.1 hL
        refine ⟨hJ, hL', fun j t' hji _ => h.known n j t' (fun input' t'' hsteps => hji ?_)⟩
        exact (PoolEvent.step.inj (Option.some.inj (he.symm.trans hsteps.1))).1.symm
      · rintro i input rfl hnone
        have hquiet : ∀ j input' t, ¬ prog.StepsAt ⟨s, []⟩ es n j input' t := by
          intro j input' t hsteps
          obtain ⟨rfl, rfl⟩ := PoolEvent.step.inj (Option.some.inj (he.symm.trans hsteps.1))
          cases hnone.symm.trans hsteps.2
        exact ⟨h.idle n _ hquiet ih.1, fun j t' => h.known n j t' (hquiet j)⟩
      · rintro x rfl
        have hquiet : ∀ j input t, ¬ prog.StepsAt ⟨s, []⟩ es n j input t :=
          fun j input t hsteps => by cases he.symm.trans hsteps.1
        exact ⟨h.idle n _ hquiet (h.env n x _ he ih.1), fun j t' _ => h.known n j t' (hquiet j)⟩

end Invariant

end Lib
end Kirino
