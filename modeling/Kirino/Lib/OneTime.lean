import Mathlib.Data.Nat.Count
import Kirino.Lib.Machine
/-!
# OneTime — secrets that are compared a bounded number of times

A run is seen through three relations: an event puts a value under a key, an event compares what is under a key, and a
comparison may be a hit.  `OneTime` bounds the comparisons of a value by its limit and ends them at the first hit.  It
follows from what each event does about each key (`Turn`): the place of a key holds the value and the number of its
comparisons, and only a put brings a value there (`oneTime_of_turns`).  For a machine that keeps such places it is enough
to look at one step (`SecretStore.oneTime_iff`).
-/
namespace Kirino
namespace Lib

section OneTime
variable {K V : Type} (limit : V → Nat) (puts : Nat → K → V → Prop) (compared hit : Nat → K → Prop)
  [∀ n key, Decidable (compared n key)]

/-- The value is the last one that is put under the key before event `n`. -/
def LastPut (j n : Nat) (key : K) (v : V) : Prop :=
  j < n ∧ puts j key v ∧ ∀ q v', j < q → q < n → ¬ puts q key v'

/-- How many events after `j` and before `n` compare what is under the key. -/
def tries (j n : Nat) (key : K) : Nat := Nat.count (fun q => j < q ∧ compared q key) n

/-- **A value is compared no more often than its limit**, and not after a hit. -/
structure OneTime : Prop where
  /-- A hit is a comparison. -/
  hitCompares : ∀ n key, hit n key → compared n key
  /-- What is compared was put there. -/
  put : ∀ n key, compared n key → ∃ j v, LastPut puts j n key v
  /-- The comparisons of a value stay within its limit. -/
  bounded : ∀ j n key v, LastPut puts j n key v → tries compared j n key ≤ limit v
  /-- Once they have reached it there are no more. -/
  exhausted : ∀ j n key v, LastPut puts j n key v → limit v ≤ tries compared j n key → ¬ compared n key
  /-- After a hit nothing is compared until a new value is put. -/
  spent : ∀ n q key, hit n key → n < q → compared q key → ∃ j v, n < j ∧ j < q ∧ puts j key v

variable (slot : Nat → K → Option (V × Nat))

/-- What event `n` does about the key. -/
structure Turn (n : Nat) (key : K) : Prop where
  ofPut : ∀ v, puts n key v → slot (n + 1) key = some (v, 0) ∧ ¬ compared n key
  ofComparison : compared n key → ∃ v t, slot n key = some (v, t) ∧ t < limit v ∧
    (slot (n + 1) key = none ∨ slot (n + 1) key = some (v, t + 1))
  ofHit : hit n key → compared n key ∧ slot (n + 1) key = none
  otherwise : (∀ v, ¬ puts n key v) → ¬ compared n key → slot (n + 1) key = slot n key ∨ slot (n + 1) key = none

variable {limit puts compared hit slot} {j n : Nat} {key : K} {v : V}

theorem LastPut.later (h : LastPut puts j n key v) (hnone : ∀ v', ¬ puts n key v') : LastPut puts j (n + 1) key v := by
  obtain ⟨hj, hput, hlast⟩ := h
  refine ⟨Nat.lt_succ_of_lt hj, hput, fun q v' hjq hqn => ?_⟩
  rcases Nat.lt_succ_iff_lt_or_eq.1 hqn with hlt | rfl
  · exact hlast q v' hjq hlt
  · exact hnone v'

theorem lastPut_succ (h : LastPut puts j (n + 1) key v) :
    j = n ∧ puts n key v ∨ LastPut puts j n key v ∧ ∀ v', ¬ puts n key v' := by
  obtain ⟨hj, hput, hlast⟩ := h
  rcases Nat.lt_succ_iff_lt_or_eq.1 hj with hlt | rfl
  · exact Or.inr ⟨⟨hlt, hput, fun q v' hjq hqn => hlast q v' hjq (Nat.lt_succ_of_lt hqn)⟩,
      fun v' => hlast n v' hlt (Nat.lt_succ_self n)⟩
  · exact Or.inl ⟨rfl, hput⟩

theorem tries_succ (hjn : j < n) : tries compared j (n + 1) key = tries compared j n key + if compared n key then 1 else 0 := by
  unfold tries
  rw [Nat.count_succ]
  simp only [hjn, true_and]

theorem tries_self : tries compared n (n + 1) key = 0 :=
  Nat.count_iff_forall_not.2 (fun _ hq hcompared => absurd hcompared.1 (Nat.not_lt.2 (Nat.le_of_lt_succ hq)))

/-- **The place of a key counts the comparisons** of the value that was put last, or is empty. -/
theorem slot_of_lastPut {m : Nat} (hturn : ∀ n, n < m → Turn limit puts compared hit slot n key) (hnm : n ≤ m)
    (hlast : LastPut puts j n key v) :
    (slot n key = none ∨ slot n key = some (v, tries compared j n key)) ∧ tries compared j n key ≤ limit v := by
  induction n with
  | zero => exact absurd hlast.1 (Nat.not_lt_zero j)
  | succ n ih =>
    have h := hturn n hnm
    rcases lastPut_succ hlast with ⟨rfl, hput⟩ | ⟨hlast, hnone⟩
    · rw [tries_self]
      exact ⟨Or.inr (h.ofPut v hput).1, Nat.zero_le _⟩
    · obtain ⟨hslot, hle⟩ := ih (Nat.le_of_succ_le hnm) hlast
      rw [tries_succ hlast.1]
      by_cases hcompared : compared n key
      · obtain ⟨v', t, hsome, hlt, hnext⟩ := h.ofComparison hcompared
        rw [if_pos hcompared]
        rcases hslot with hslot | hslot
        · cases hslot.symm.trans hsome
        · obtain ⟨rfl, rfl⟩ := Prod.mk.inj (Option.some.inj (hslot.symm.trans hsome))
          exact ⟨hnext, hlt⟩
      · rw [if_neg hcompared]
        refine ⟨?_, hle⟩
        rcases h.otherwise hnone hcompared with hsame | hgone
        · rwa [hsame]
        · exact Or.inl hgone

/-- **Only a put fills the place of a key**: what was empty and is not, was put in between. -/
theorem exists_lastPut {m a : Nat} (hturn : ∀ n, n < m → Turn limit puts compared hit slot n key) (hempty : slot a key = none)
    (han : a ≤ n) (hnm : n ≤ m) {x : V × Nat} (hslot : slot n key = some x) : ∃ j v, a ≤ j ∧ LastPut puts j n key v := by
  induction n, han using Nat.le_induction generalizing x with
  | base => cases hempty.symm.trans hslot
  | succ n han ih =>
    have h := hturn n hnm
    by_cases hput : ∃ v, puts n key v
    · obtain ⟨v, hput⟩ := hput
      exact ⟨n, v, han, Nat.lt_succ_self n, hput, fun q _ hnq hqn => absurd (Nat.le_of_lt_succ hqn) (Nat.not_le.2 hnq)⟩
    · have hnone : ∀ v, ¬ puts n key v := fun v hv => hput ⟨v, hv⟩
      obtain ⟨y, hy⟩ : ∃ y, slot n key = some y := by
        by_cases hcompared : compared n key
        · obtain ⟨v, t, hsome, -⟩ := h.ofComparison hcompared
          exact ⟨(v, t), hsome⟩
        · rcases h.otherwise hnone hcompared with hsame | hgone
          · exact ⟨x, hsame.symm.trans hslot⟩
          · cases hgone.symm.trans hslot
      obtain ⟨j, v, haj, hlast⟩ := ih (Nat.le_of_succ_le hnm) hy
      exact ⟨j, v, haj, hlast.later hnone⟩

theorem lastPut_of_slot {m : Nat} (hturn : ∀ n, n < m → Turn limit puts compared hit slot n key) (hempty : slot 0 key = none)
    (hnm : n ≤ m) {t : Nat} (hslot : slot n key = some (v, t)) : ∃ j, LastPut puts j n key v ∧ t = tries compared j n key := by
  obtain ⟨j, v', -, hlast⟩ := exists_lastPut hturn hempty (Nat.zero_le n) hnm hslot
  rcases (slot_of_lastPut hturn hnm hlast).1 with hnone | hsome
  · cases hnone.symm.trans hslot
  · obtain ⟨rfl, rfl⟩ := Prod.mk.inj (Option.some.inj (hsome.symm.trans hslot))
    exact ⟨j, hlast, rfl⟩

/-- **Turn by turn, a value is compared no more often than its limit.** -/
theorem oneTime_of_turns (hturn : ∀ n key, Turn limit puts compared hit slot n key) (hempty : ∀ key, slot 0 key = none) :
    OneTime limit puts compared hit where
  hitCompares n key hhit := ((hturn n key).ofHit hhit).1
  put n key hcompared := by
    obtain ⟨v, t, hsome, -⟩ := (hturn n key).ofComparison hcompared
    obtain ⟨j, hlast, -⟩ := lastPut_of_slot (fun n _ => hturn n key) (hempty key) (Nat.le_refl n) hsome
    exact ⟨j, v, hlast⟩
  bounded j n key v hlast := (slot_of_lastPut (fun n _ => hturn n key) (Nat.le_refl n) hlast).2
  exhausted j n key v hlast hle hcompared := by
    obtain ⟨v', t, hsome, hlt, -⟩ := (hturn n key).ofComparison hcompared
    rcases (slot_of_lastPut (fun n _ => hturn n key) (Nat.le_refl n) hlast).1 with hnone | hfull
    · cases hnone.symm.trans hsome
    · obtain ⟨rfl, rfl⟩ := Prod.mk.inj (Option.some.inj (hfull.symm.trans hsome))
      exact absurd hlt (Nat.not_lt.2 hle)
  spent n q key hhit hnq hcompared := by
    obtain ⟨v, t, hsome, -⟩ := (hturn q key).ofComparison hcompared
    obtain ⟨j, v', hnj, hlast⟩ := exists_lastPut (fun n _ => hturn n key) ((hturn n key).ofHit hhit).2 hnq (Nat.le_refl q) hsome
    exact ⟨j, v', hnj, hlast.1, hlast.2.1⟩

/-- **A value has one hit.** -/
theorem OneTime.once (h : OneTime limit puts compared hit) {q : Nat} (hn : hit n key) (hnq : n < q) (hq : hit q key) :
    ∃ j v, n < j ∧ j < q ∧ puts j key v :=
  h.spent n q key hn hnq (h.hitCompares q key hq)

end OneTime

/-! ## Machines that keep secrets -/

/-- A machine with a place for each key, and what its events do about them. -/
structure SecretStore (σ ε ο K V : Type) where
  machine : Machine σ ε ο
  slot : σ → K → Option (V × Nat)
  limit : V → Nat
  put? : ε → Option (K × V)
  compares : σ → ε → K → Bool
  hits : σ → ε → K → Bool

namespace SecretStore

variable {σ ε ο K V : Type} (store : SecretStore σ ε ο K V) (s₀ : σ) (es : List ε)

def PutAt (j : Nat) (key : K) (v : V) : Prop := ∃ e, es[j]? = some e ∧ store.put? e = some (key, v)

def ComparedAt (n : Nat) (key : K) : Prop :=
  (es[n]?).any (fun e => store.compares (store.machine.run s₀ (es.take n)) e key) = true

instance (n : Nat) (key : K) : Decidable (store.ComparedAt s₀ es n key) := inferInstanceAs (Decidable (_ = true))

def HitAt (n : Nat) (key : K) : Prop :=
  (es[n]?).any (fun e => store.hits (store.machine.run s₀ (es.take n)) e key) = true

/-- The secrets of a run are compared within their limits. -/
def OneTimeRun : Prop := OneTime store.limit (store.PutAt es) (store.ComparedAt s₀ es) (store.HitAt s₀ es)

/-- What one step does about the key. -/
structure StepTurn (s : σ) (e : ε) (key : K) : Prop where
  ofPut : ∀ v, store.put? e = some (key, v) →
    store.slot (store.machine.step s e) key = some (v, 0) ∧ store.compares s e key = false
  ofComparison : store.compares s e key = true → ∃ v t, store.slot s key = some (v, t) ∧ t < store.limit v ∧
    (store.slot (store.machine.step s e) key = none ∨ store.slot (store.machine.step s e) key = some (v, t + 1))
  ofHit : store.hits s e key = true →
    store.compares s e key = true ∧ store.slot (store.machine.step s e) key = none
  otherwise : (∀ v, store.put? e ≠ some (key, v)) → store.compares s e key = false →
    store.slot (store.machine.step s e) key = store.slot s key ∨ store.slot (store.machine.step s e) key = none

variable {store s₀ es} {n : Nat} {key : K} {e : ε}

/-- A step that neither puts nor compares a value at the key is a turn when it leaves the place as it is, or empties it. -/
theorem StepTurn.of_idle {s : σ} (hput : ∀ v, store.put? e ≠ some (key, v)) (hcompares : store.compares s e key = false)
    (hhits : store.hits s e key = false)
    (hslot : store.slot (store.machine.step s e) key = store.slot s key ∨ store.slot (store.machine.step s e) key = none) :
    store.StepTurn s e key where
  ofPut v hv := absurd hv (hput v)
  ofComparison hcompared := by
    cases hcompares.symm.trans hcompared
  ofHit hhit := by
    cases hhits.symm.trans hhit
  otherwise _ _ := hslot

theorem putAt_iff (he : es[n]? = some e) {v : V} : store.PutAt es n key v ↔ store.put? e = some (key, v) := by
  unfold PutAt
  simp [he]

theorem comparedAt_iff (he : es[n]? = some e) :
    store.ComparedAt s₀ es n key ↔ store.compares (store.machine.run s₀ (es.take n)) e key = true := by
  unfold ComparedAt
  simp [he]

theorem hitAt_iff (he : es[n]? = some e) :
    store.HitAt s₀ es n key ↔ store.hits (store.machine.run s₀ (es.take n)) e key = true := by
  unfold HitAt
  simp [he]

/-- **A turn of the run is a step of the machine**, or nothing. -/
theorem turn_of_step (h : ∀ e, es[n]? = some e → store.StepTurn (store.machine.run s₀ (es.take n)) e key) :
    Turn store.limit (store.PutAt es) (store.ComparedAt s₀ es) (store.HitAt s₀ es)
      (fun n => store.slot (store.machine.run s₀ (es.take n))) n key := by
  cases he : es[n]? with
  | none =>
    have hlength := List.getElem?_eq_none_iff.1 he
    have hsame : es.take (n + 1) = es.take n := by
      rw [List.take_of_length_le hlength, List.take_of_length_le (Nat.le_succ_of_le hlength)]
    refine ⟨fun v hput => ?_, fun hcompared => ?_, fun hhit => ?_, fun _ _ => Or.inl ?_⟩
    · obtain ⟨e, he', -⟩ := hput
      cases he.symm.trans he'
    · unfold ComparedAt at hcompared
      rw [he] at hcompared
      cases hcompared
    · unfold HitAt at hhit
      rw [he] at hhit
      cases hhit
    · rw [hsame]
  | some e =>
    have hturn := h e he
    have hstep := store.machine.run_take_succ s₀ he
    refine ⟨fun v hput => ?_, fun hcompared => ?_, fun hhit => ?_, fun hput hcompared => ?_⟩
    · obtain ⟨hslot, hnot⟩ := hturn.ofPut v ((putAt_iff he).1 hput)
      rw [hstep, comparedAt_iff he, hnot]
      exact ⟨hslot, Bool.false_ne_true⟩
    · rw [hstep]
      exact hturn.ofComparison ((comparedAt_iff he).1 hcompared)
    · rw [hstep, comparedAt_iff he]
      exact hturn.ofHit ((hitAt_iff he).1 hhit)
    · rw [hstep]
      refine hturn.otherwise (fun v hv => hput v ((putAt_iff he).2 hv)) ?_
      rw [comparedAt_iff he] at hcompared
      exact Bool.eq_false_iff.2 hcompared

/-- What is at the place of a key was put there, by the steps that are turns. -/
theorem lastPut_of_along {P : σ → ε → Prop} (hempty : ∀ key, store.slot s₀ key = none)
    (haccept : ∀ s e, P s e → ∀ key, store.StepTurn s e key) (halong : store.machine.Along P s₀ es) {v : V} {t : Nat}
    (hslot : store.slot (store.machine.run s₀ (es.take n)) key = some (v, t)) :
    ∃ j, LastPut (store.PutAt es) j n key v ∧ t = tries (store.ComparedAt s₀ es) j n key := by
  refine lastPut_of_slot (fun q _ => turn_of_step (fun e he => ?_)) (hempty key) (Nat.le_refl n) hslot
  exact haccept _ e (store.machine.along_getElem? P s₀ es halong q e he) key

/-- **One step decides**: where every step the condition accepts is a turn, and a step it refuses compares a value whose
comparisons are used up, the secrets of a run are compared within their limits exactly when every step is accepted. -/
theorem oneTime_iff {P : σ → ε → Prop} (hempty : ∀ key, store.slot s₀ key = none)
    (haccept : ∀ s e, P s e → ∀ key, store.StepTurn s e key)
    (hrefuse : ∀ s e, ¬ P s e → ∃ key v t, store.slot s key = some (v, t) ∧ store.limit v ≤ t ∧ store.compares s e key = true) :
    store.OneTimeRun s₀ es ↔ store.machine.Along P s₀ es := by
  constructor
  · intro h
    apply store.machine.along_of_getElem?
    intro n
    induction n using Nat.strong_induction_on with
    | _ n ih =>
      intro e he
      by_contra hP
      obtain ⟨key, v, t, hslot, hle, hcompares⟩ := hrefuse _ e hP
      obtain ⟨j, hlast, rfl⟩ := lastPut_of_slot (fun q hq => turn_of_step (fun f hf => haccept _ f (ih q hq f hf) key))
        (hempty key) (Nat.le_refl n) hslot
      exact h.exhausted j n key v hlast hle ((comparedAt_iff he).2 hcompares)
  · intro h
    refine oneTime_of_turns (fun n key => turn_of_step (fun e he => ?_)) hempty
    exact haccept _ e (store.machine.along_getElem? P s₀ es h n e he) key

end SecretStore

end Lib
end Kirino
