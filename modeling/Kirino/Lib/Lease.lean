import Kirino.Lib.OneTime
import Kirino.Lib.SingleUse
/-!
# Lease — what is held from its beginning to its end

A run is seen through three relations: an event begins a key with a value, renews it at a time, or ends it.  A key is
`Held` when it was begun and not ended since, and its time is that of the last renewal.  A table whose events each do
their part about a key (`LeaseTurn`) has exactly the keys that are held (`slot_eq_some_iff`).
-/
namespace Kirino
namespace Lib

section Lease
variable {K V T : Type} (begun : Nat → K → V → Prop) (renewed : Nat → K → T → Prop) (ended : Nat → K → Prop)

/-- The key was begun, has not ended since, and was last renewed at this time; the beginning is a renewal. -/
def Held (n : Nat) (key : K) (v : V) (t : T) : Prop :=
  ∃ c a, c ≤ a ∧ begun c key v ∧ (∀ q, c < q → q < n → ¬ ended q key) ∧ LastPut renewed a n key t

variable (slot : Nat → K → Option (V × T))

/-- What event `n` does about the key. -/
structure LeaseTurn (n : Nat) (key : K) : Prop where
  ofBegin : ∀ v, begun n key v → (∃ t, renewed n key t) ∧ ∀ t, renewed n key t → slot (n + 1) key = some (v, t)
  ofEnd : ended n key → slot (n + 1) key = none
  ofRenewal : ∀ t, renewed n key t → (∀ v, ¬ begun n key v) → slot (n + 1) key = (slot n key).map (fun x => (x.1, t))
  otherwise : (∀ v, ¬ begun n key v) → ¬ ended n key → (∀ t, ¬ renewed n key t) → slot (n + 1) key = slot n key

variable {begun renewed ended slot} {n : Nat} {key : K} {v : V} {t : T}

/-- After a renewal there is a last one. -/
theorem exists_lastPut_of_lt {c : Nat} (h : renewed c key t) (hcn : c < n) : ∃ a t', c ≤ a ∧ LastPut renewed a n key t' := by
  induction n, hcn using Nat.le_induction with
  | base =>
    refine ⟨c, t, Nat.le_refl c, Nat.lt_succ_self c, h, fun q _ hcq hqc => ?_⟩
    exact absurd (Nat.le_of_lt_succ hqc) (Nat.not_le.2 hcq)
  | succ n hcn ih =>
    by_cases hrenewed : ∃ t', renewed n key t'
    · obtain ⟨t', hrenewed⟩ := hrenewed
      exact ⟨n, t', Nat.le_of_lt hcn, Nat.lt_succ_self n, hrenewed,
        fun q _ hnq hqn => absurd (Nat.le_of_lt_succ hqn) (Nat.not_le.2 hnq)⟩
    · obtain ⟨a, t', hca, hlast⟩ := ih
      exact ⟨a, t', hca, hlast.later (fun t'' ht'' => hrenewed ⟨t'', ht''⟩)⟩

theorem held_begin (hbegun : begun n key v) (hrenewed : renewed n key t) : Held begun renewed ended (n + 1) key v t := by
  have hnone : ∀ q, n < q → ¬ q < n + 1 := fun q hnq hqn => absurd (Nat.le_of_lt_succ hqn) (Nat.not_le.2 hnq)
  exact ⟨n, n, Nat.le_refl n, hbegun, fun q hnq hqn => absurd hqn (hnone q hnq), Nat.lt_succ_self n, hrenewed,
    fun q _ hnq hqn => absurd hqn (hnone q hnq)⟩

/-- What is held after an event that does not begin it was held before, at some time, and did not end. -/
theorem held_of_succ (hturn : ∀ n key, LeaseTurn begun renewed ended slot n key) (hnone : ∀ v, ¬ begun n key v)
    (h : Held begun renewed ended (n + 1) key v t) :
    ¬ ended n key ∧ ∃ t', Held begun renewed ended n key v t' ∧ (renewed n key t ∨ (∀ t, ¬ renewed n key t) ∧ t = t') := by
  obtain ⟨c, a, hca, hbegun, hend, hlast⟩ := h
  have hcn : c < n := by
    rcases Nat.lt_succ_iff_lt_or_eq.1 (Nat.lt_of_le_of_lt hca hlast.1) with hlt | rfl
    · exact hlt
    · exact absurd hbegun (hnone v)
  have hend' : ∀ q, c < q → q < n → ¬ ended q key := fun q hcq hqn => hend q hcq (Nat.lt_succ_of_lt hqn)
  refine ⟨hend n hcn (Nat.lt_succ_self n), ?_⟩
  rcases lastPut_succ hlast with ⟨rfl, hrenewed⟩ | ⟨hlast', hquiet⟩
  · obtain ⟨t₀, ht₀⟩ := ((hturn c key).ofBegin v hbegun).1
    obtain ⟨a', t', hca', hlast'⟩ := exists_lastPut_of_lt ht₀ hcn
    exact ⟨t', ⟨c, a', hca', hbegun, hend', hlast'⟩, Or.inl hrenewed⟩
  · exact ⟨t, ⟨c, a, hca, hbegun, hend', hlast'⟩, Or.inr ⟨hquiet, rfl⟩⟩

theorem Held.later (h : Held begun renewed ended n key v t) (hend : ¬ ended n key) (hquiet : ∀ t', ¬ renewed n key t') :
    Held begun renewed ended (n + 1) key v t := by
  obtain ⟨c, a, hca, hbegun, hopen, hlast⟩ := h
  refine ⟨c, a, hca, hbegun, fun q hcq hqn => ?_, hlast.later hquiet⟩
  rcases Nat.lt_succ_iff_lt_or_eq.1 hqn with hlt | rfl
  · exact hopen q hcq hlt
  · exact hend

theorem Held.renew (h : Held begun renewed ended n key v t) (hend : ¬ ended n key) {t' : T} (hrenewed : renewed n key t') :
    Held begun renewed ended (n + 1) key v t' := by
  obtain ⟨c, a, hca, hbegun, hopen, hlast⟩ := h
  refine ⟨c, n, Nat.le_trans hca (Nat.le_of_lt hlast.1), hbegun, fun q hcq hqn => ?_, Nat.lt_succ_self n, hrenewed,
    fun q _ hnq hqn => absurd (Nat.le_of_lt_succ hqn) (Nat.not_le.2 hnq)⟩
  rcases Nat.lt_succ_iff_lt_or_eq.1 hqn with hlt | rfl
  · exact hopen q hcq hlt
  · exact hend

/-- **The table has what is held**, with the time of its last renewal. -/
theorem slot_eq_some_iff (hturn : ∀ n key, LeaseTurn begun renewed ended slot n key) (hempty : slot 0 key = none)
    (honce : GivenOnce begun) : slot n key = some (v, t) ↔ Held begun renewed ended n key v t := by
  induction n generalizing v t with
  | zero =>
    refine ⟨fun h => ?_, fun h => ?_⟩
    · cases hempty.symm.trans h
    · obtain ⟨c, a, -, -, -, hlast⟩ := h
      exact absurd hlast.1 (Nat.not_lt_zero a)
  | succ n ih =>
    have h := hturn n key
    by_cases hbegin : ∃ v₀, begun n key v₀
    · obtain ⟨v₀, hbegun₀⟩ := hbegin
      obtain ⟨⟨t₀, ht₀⟩, hslot⟩ := h.ofBegin v₀ hbegun₀
      constructor
      · intro hsome
        obtain ⟨rfl, rfl⟩ := Prod.mk.inj (Option.some.inj ((hslot t₀ ht₀).symm.trans hsome))
        exact held_begin hbegun₀ ht₀
      · rintro ⟨c, a, hca, hbegun, -, hlast⟩
        obtain rfl := honce c n key v v₀ hbegun hbegun₀
        obtain rfl := Nat.le_antisymm hca (Nat.le_of_lt_succ hlast.1)
        exact (h.ofBegin v hbegun).2 t hlast.2.1
    · have hnone : ∀ v, ¬ begun n key v := fun v hv => hbegin ⟨v, hv⟩
      by_cases hend : ended n key
      · rw [h.ofEnd hend]
        exact ⟨fun hsome => (by cases hsome), fun hheld => absurd hend (held_of_succ hturn hnone hheld).1⟩
      · by_cases hrenew : ∃ t₀, renewed n key t₀
        · obtain ⟨t₀, ht₀⟩ := hrenew
          constructor
          · intro hsome
            rw [h.ofRenewal t₀ ht₀ hnone] at hsome
            obtain ⟨⟨v', t'⟩, hslot, heq⟩ := Option.map_eq_some_iff.1 hsome
            obtain ⟨rfl, rfl⟩ := Prod.mk.inj heq
            exact (ih.1 hslot).renew hend ht₀
          · intro hheld
            obtain ⟨-, t', hheld', hrenewed | ⟨hquiet, -⟩⟩ := held_of_succ hturn hnone hheld
            · rw [h.ofRenewal t hrenewed hnone, ih.2 hheld']
              rfl
            · exact absurd ht₀ (hquiet t₀)
        · have hquiet : ∀ t, ¬ renewed n key t := fun t ht => hrenew ⟨t, ht⟩
          rw [h.otherwise hnone hend hquiet, ih]
          constructor
          · exact fun hheld => hheld.later hend hquiet
          · intro hheld
            obtain ⟨-, t', hheld', hrenewed | ⟨-, rfl⟩⟩ := held_of_succ hturn hnone hheld
            · exact absurd hrenewed (hquiet t)
            · exact hheld'

/-- **What has ended does not come back.** -/
theorem slot_eq_none_of_ended (hturn : ∀ n key, LeaseTurn begun renewed ended slot n key) (hempty : slot 0 key = none)
    (honce : GivenOnce begun) {c q : Nat} (hbegun : begun c key v) (hcq : c < q) (hended : ended q key) (hqn : q < n) :
    slot n key = none := by
  cases hslot : slot n key with
  | none => rfl
  | some x =>
    obtain ⟨c', a, -, hbegun', hopen, -⟩ := (slot_eq_some_iff hturn hempty honce).1 hslot
    obtain rfl := honce c c' key v x.1 hbegun hbegun'
    exact absurd hended (hopen q hcq hqn)

end Lease

end Lib
end Kirino
