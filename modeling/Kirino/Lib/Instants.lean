import Mathlib.Algebra.Group.Int.Defs
import Mathlib.Algebra.Group.Nat.Defs
import Mathlib.Data.Int.Basic
/-!
# Instants — the range of the instants and of the durations

Instants are nanoseconds from the epoch, between the beginning of the year -262143 and the end of the year 262142.
Durations are nanoseconds, up to `i64::MAX` milliseconds, hundreds of times the span of the instants: a duration may be one
that no instant is away from the clock.  The instants of the clock that does not go back are natural numbers.
-/
namespace Kirino
namespace Lib

def nanosPerSec : Nat := 10 ^ 9

/-- The whole seconds of a duration, towards zero. -/
def numSeconds (nanos : Int) : Int := nanos.tdiv nanosPerSec

def earliestInstant : Int := -8334601228800 * 10 ^ 9

def latestInstant : Int := 8210266876800 * 10 ^ 9 - 1

def maxDuration : Nat := (2 ^ 63 - 1) * 10 ^ 6

/-- The whole seconds of the longest duration. -/
def maxDurationSecs : Nat := (2 ^ 63 - 1) / 1000

/-- The instant that lies a duration back, none where there is no such instant. -/
def instantBack (now : Int) (duration : Nat) : Option Int :=
  if now - duration < earliestInstant then none else some (now - duration)

theorem instantBack_eq_none_iff {now : Int} {duration : Nat} :
    instantBack now duration = none ↔ now - duration < earliestInstant := by
  unfold instantBack
  split
  · next hearly => exact iff_of_true rfl hearly
  · next hearly => exact iff_of_false (by simp) hearly

/-- The instants span less than the longest duration. -/
theorem lt_earliestInstant_of_long {now : Int} (hclock : now ≤ latestInstant) {nanos : Nat} (hlong : maxDuration < nanos) :
    now - nanos < earliestInstant := by
  unfold latestInstant at hclock
  unfold maxDuration at hlong
  unfold earliestInstant
  omega

/-- An instant of the clock that does not go back, a duration later; `none` for the panic of a sum whose seconds leave an
`i64`. -/
def instantAfter (now duration : Nat) : Option Nat :=
  if (now + duration) / 10 ^ 9 < 2 ^ 63 then some (now + duration) else none

end Lib
end Kirino
