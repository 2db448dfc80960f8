import Mathlib.Algebra.Group.Int.Defs
import Mathlib.Algebra.Group.Nat.Defs
import Mathlib.Data.Int.Basic
/-!
# MachineInt — 64-bit sums that may overflow, and the cast between the two signs

Signed and unsigned 64-bit integers are `Int` and `Nat`.  A sum that leaves the range is `none`, the panic of a build
with overflow checks, or wraps in a build without; the cast of an unsigned number to a signed one wraps.
-/
namespace Kirino
namespace Lib

def inI64 (x : Int) : Bool := decide (-2 ^ 63 ≤ x ∧ x < 2 ^ 63)

def addI64 (x y : Int) : Option Int := if inI64 (x + y) then some (x + y) else none

def subI64 (x y : Int) : Option Int := if inI64 (x - y) then some (x - y) else none

def addU64 (x y : Nat) : Option Nat := if x + y < 2 ^ 64 then some (x + y) else none

/-- The cast of a `u64` to an `i64`. -/
def asI64 (x : Nat) : Int := if x < 2 ^ 63 then x else x - 2 ^ 64

/-- A sum in a build with overflow checks, or in one that wraps. -/
def sumI64 (overflowChecks : Bool) (x y : Int) : Option Int :=
  if overflowChecks then addI64 x y else some ((x + y).bmod (2 ^ 64))

/-- A difference, likewise. -/
def diffI64 (overflowChecks : Bool) (x y : Int) : Option Int :=
  if overflowChecks then subI64 x y else some ((x - y).bmod (2 ^ 64))

/-- A sum of unsigned numbers, likewise. -/
def sumU64 (overflowChecks : Bool) (x y : Nat) : Option Nat :=
  if overflowChecks then addU64 x y else some ((x + y) % 2 ^ 64)

theorem addI64_eq_some {x y z : Int} (h : addI64 x y = some z) : z = x + y := by
  unfold addI64 at h
  split at h
  · exact (Option.some.inj h).symm
  · cases h

theorem subI64_eq_some {x y z : Int} (h : subI64 x y = some z) : z = x - y := by
  unfold subI64 at h
  split at h
  · exact (Option.some.inj h).symm
  · cases h

theorem sumI64_of_inI64 {x y : Int} (h : inI64 (x + y) = true) (overflowChecks : Bool) :
    sumI64 overflowChecks x y = some (x + y) := by
  unfold sumI64
  cases overflowChecks with
  | true => rw [if_pos rfl, addI64, if_pos h]
  | false =>
    have hrange := of_decide_eq_true h
    rw [if_neg Bool.false_ne_true, Int.bmod_eq_of_le (by omega) (by omega)]

/-- A sum that is not below the range is the number itself or less. -/
theorem le_of_sumI64 {x y z : Int} {overflowChecks : Bool} (hlow : -2 ^ 63 ≤ x + y)
    (h : sumI64 overflowChecks x y = some z) : z ≤ x + y := by
  unfold sumI64 at h
  cases overflowChecks with
  | true => exact Int.le_of_eq (addI64_eq_some h)
  | false =>
    rw [if_neg Bool.false_ne_true] at h
    rw [← Option.some.inj h, Int.bmod_def]
    split <;> omega

/-- A sum that the build checks, or that fits, is the number itself. -/
theorem sumI64_eq_some {x y z : Int} {overflowChecks : Bool} (hfits : overflowChecks = true ∨ inI64 (x + y) = true)
    (h : sumI64 overflowChecks x y = some z) : z = x + y := by
  rcases hfits with rfl | hrange
  · exact addI64_eq_some h
  · rw [sumI64_of_inI64 hrange] at h
    exact (Option.some.inj h).symm

theorem diffI64_eq_some {x y z : Int} {overflowChecks : Bool} (hfits : overflowChecks = true ∨ inI64 (x - y) = true)
    (h : diffI64 overflowChecks x y = some z) : z = x - y := by
  unfold diffI64 at h
  rcases hfits with rfl | hrange
  · exact subI64_eq_some h
  · split at h
    · exact subI64_eq_some h
    · have hbounds := of_decide_eq_true hrange
      rw [Int.bmod_eq_of_le (by omega) (by omega)] at h
      exact (Option.some.inj h).symm

/-- A sum of unsigned numbers is the sum modulo the word. -/
theorem sumU64_eq_some {x y z : Nat} {overflowChecks : Bool} (h : sumU64 overflowChecks x y = some z) :
    z = (x + y) % 2 ^ 64 := by
  unfold sumU64 addU64 at h
  split at h
  · split at h
    · rw [Nat.mod_eq_of_lt ‹_›]
      exact (Option.some.inj h).symm
    · cases h
  · exact (Option.some.inj h).symm

theorem sumU64_of_lt {x y : Nat} (h : x + y < 2 ^ 64) (overflowChecks : Bool) :
    sumU64 overflowChecks x y = some (x + y) := by
  unfold sumU64 addU64
  rw [if_pos h, Nat.mod_eq_of_lt h, ite_self]

/-- A sum above the range is no sum, or a negative one. -/
theorem sumI64_eq_some_neg {x y z : Int} {overflowChecks : Bool} (hlow : 2 ^ 63 ≤ x + y) (hhigh : x + y < 2 ^ 64)
    (h : sumI64 overflowChecks x y = some z) : z < 0 := by
  unfold sumI64 at h
  cases overflowChecks with
  | true =>
    have hout : inI64 (x + y) = false := decide_eq_false (fun hrange => absurd hrange.2 (Int.not_lt.2 hlow))
    rw [if_pos rfl, addI64, hout] at h
    cases h
  | false =>
    rw [if_neg Bool.false_ne_true] at h
    have hz : (x + y).bmod (2 ^ 64) = z := Option.some.inj h
    rw [← hz, Int.bmod_def]
    omega

theorem asI64_le (x : Nat) : asI64 x ≤ x := by
  unfold asI64
  split <;> omega

theorem le_asI64 (x : Nat) : -2 ^ 63 ≤ asI64 x := by
  unfold asI64
  split <;> omega

theorem asI64_of_not_lt {x : Nat} (h : ¬ x < 2 ^ 63) : asI64 x = x - 2 ^ 64 := if_neg h

theorem asI64_of_lt {x : Nat} (h : x < 2 ^ 63) : asI64 x = x := if_pos h

end Lib
end Kirino
