import Mathlib.Order.Basic
/-!
# SingleUse — what is handed out once, and asked for first by one party

A run is seen through two relations: at event `k` a value is handed out under a key, and at event `a` party `i` asks for
a key.  A key nobody has asked for since it was handed out is `Unasked`.  When no key is handed out twice, whoever finds
a key unasked is the only one who ever does (`FirstAsk.eq`).
-/
namespace Kirino
namespace Lib

section SingleUse
variable {K V : Type} (given : Nat → K → V → Prop) (asked : Nat → Nat → K → Prop)

/-- The value was handed out under the key before event `n`, and nobody has asked for the key since. -/
def Unasked (n : Nat) (key : K) (v : V) : Prop :=
  ∃ k, k < n ∧ given k key v ∧ ∀ a i, k < a → a < n → ¬ asked a i key

/-- Party `i` asks for the key at event `a`, and finds it unasked. -/
def FirstAsk (a i : Nat) (key : K) (v : V) : Prop := asked a i key ∧ Unasked given asked a key v

/-- No key is handed out twice. -/
def GivenOnce : Prop := ∀ k k' key v v', given k key v → given k' key v' → k = k'

variable {given asked} {n : Nat} {key : K} {v : V}

theorem unasked_given (h : given n key v) : Unasked given asked (n + 1) key v :=
  ⟨n, Nat.lt_succ_self n, h, fun _ _ hna han => absurd (Nat.lt_of_lt_of_le hna (Nat.le_of_lt_succ han)) (Nat.lt_irrefl n)⟩

theorem Unasked.later (h : Unasked given asked n key v) (hquiet : ∀ i, ¬ asked n i key) :
    Unasked given asked (n + 1) key v := by
  obtain ⟨k, hk, hgiven, huntouched⟩ := h
  refine ⟨k, Nat.lt_succ_of_lt hk, hgiven, fun a i hka han => ?_⟩
  rcases Nat.lt_succ_iff_lt_or_eq.1 han with hlt | rfl
  · exact huntouched a i hka hlt
  · exact hquiet i

/-- An unasked key has not been asked for since any time it was handed out. -/
theorem Unasked.untouched (honce : GivenOnce given) (h : Unasked given asked n key v) {k : Nat} {v' : V}
    (hgiven : given k key v') {a i : Nat} (hka : k < a) (han : a < n) : ¬ asked a i key := by
  obtain ⟨k', -, hgiven', huntouched⟩ := h
  obtain rfl := honce k k' key v' v hgiven hgiven'
  exact huntouched a i hka han

/-- **One party finds the key unasked**, once. -/
theorem FirstAsk.eq (honce : GivenOnce given) (hone : ∀ a i j key, asked a i key → asked a j key → i = j)
    {a b i j : Nat} {v' : V} (h : FirstAsk given asked a i key v) (h' : FirstAsk given asked b j key v') :
    a = b ∧ i = j := by
  obtain ⟨hasked, hunasked⟩ := h
  obtain ⟨hasked', hunasked'⟩ := h'
  obtain ⟨k, hk, hgiven, -⟩ := id hunasked
  obtain ⟨k', hk', hgiven', -⟩ := id hunasked'
  rcases Nat.lt_trichotomy a b with hlt | rfl | hlt
  · exact absurd hasked (hunasked'.untouched honce hgiven hk hlt)
  · exact ⟨rfl, hone a i j key hasked hasked'⟩
  · exact absurd hasked' (hunasked.untouched honce hgiven' hk' hlt)

end SingleUse

end Lib
end Kirino
