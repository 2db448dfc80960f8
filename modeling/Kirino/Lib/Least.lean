import Mathlib.Order.Bounds.Basic
/-!
# Least — the least value met so far

A fold that keeps one pending value, replaced only by a smaller one, holds the least of the values it has met
(`LeastOf`), whatever the order it met them in and however often: the least of a set is a function of the set
(`LeastOf.unique`).
-/
namespace Kirino
namespace Lib

section
variable {α : Type*} [LinearOrder α] {V : Set α} {d d' : Option α}

/-- The least value of the set, and none of the empty set. -/
def LeastOf (V : Set α) : Option α → Prop
  | none => V = ∅
  | some d => IsLeast V d

@[simp] theorem leastOf_none : LeastOf V none ↔ V = ∅ := Iff.rfl

@[simp] theorem leastOf_some {a : α} : LeastOf V (some a) ↔ IsLeast V a := Iff.rfl

/-- **The least of a set is a function of the set.** -/
theorem LeastOf.unique (h : LeastOf V d) (h' : LeastOf V d') : d = d' := by
  cases d with
  | none =>
    cases d' with
    | none => rfl
    | some a' =>
      rw [leastOf_none] at h
      exact absurd h'.1 (h ▸ Set.notMem_empty a')
  | some a =>
    cases d' with
    | none =>
      rw [leastOf_none] at h'
      exact absurd h.1 (h' ▸ Set.notMem_empty a)
    | some a' => exact congrArg some (IsLeast.unique h h')

/-- A first value is the least of itself. -/
theorem LeastOf.insert_none (h : LeastOf V none) (a : α) : LeastOf (insert a V) (some a) := by
  rw [leastOf_none] at h
  rw [h, leastOf_some, insert_empty_eq]
  exact isLeast_singleton

/-- A smaller value replaces the pending one. -/
theorem LeastOf.insert_of_lt {a b : α} (h : LeastOf V (some b)) (hab : a < b) : LeastOf (insert a V) (some a) := by
  have hmin := IsLeast.insert a h
  rwa [min_eq_left (le_of_lt hab)] at hmin

/-- A value that is not smaller leaves the pending one. -/
theorem LeastOf.insert_of_le {a b : α} (h : LeastOf V (some b)) (hba : b ≤ a) : LeastOf (insert a V) (some b) := by
  have hmin := IsLeast.insert a h
  rwa [min_eq_right hba] at hmin

end

end Lib
end Kirino
