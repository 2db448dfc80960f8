import Kirino.Lib.FixedWindow
import Kirino.Lib.Instants
import Kirino.Lib.Machine
import Kirino.Lib.MachineInt
import Kirino.Service.Validation
/-!
# RateLimit — the login limiter (`service/login/mod.rs`)

Each key has a bucket, which its case and the white space around it do not change; a bucket counts in a fixed window and
locks when the window is full.  At the capacity the buckets that have lapsed leave.  A bucket is a window of the library
that may have been dropped once it lapsed (`Tracks`), so that neither the other keys nor the capacity change its answers.
Instants and durations are in nanoseconds.
-/
namespace Kirino
namespace Service

open Lib (HashMap Machine Window WindowPolicy addU64 nanosPerSec)
open Lib.WindowPolicy (next_cases count_next_le)

structure RateLimitEntry where
  attempts : Nat
  windowStart : Nat
deriving DecidableEq, Repr

/-- The limits, whether password login is enabled, and the standard library's lower case. -/
structure LoginRateLimiter where
  maxAttempts : Nat
  windowSecs : Nat
  lockoutSecs : Nat
  enabled : Bool
  toLowercase : String → String

abbrev RateLimitEntries := HashMap String RateLimitEntry

def rateLimiterMaxEntries : Nat := 10000

def tooManyAttempts (remaining : Nat) : ServiceError :=
  .validation ("too many login attempts, try again in " ++ toString (remaining / nanosPerSec) ++ " seconds")

/-- At the capacity the buckets whose time is over leave. -/
def pruneEntries (total now : Nat) (entries : RateLimitEntries) : RateLimitEntries :=
  if rateLimiterMaxEntries ≤ entries.len then entries.retain (fun _ e => decide (now - e.windowStart ≤ total)) else entries

namespace LoginRateLimiter
variable (limiter : LoginRateLimiter)

def bucketKey (key : String) : String := limiter.toLowercase (trim key)

def window : Nat := limiter.windowSecs * nanosPerSec

def total : Nat := (limiter.windowSecs + limiter.lockoutSecs) * nanosPerSec

/-- One attempt on a bucket. -/
def countAttempt (entry : RateLimitEntry) (now : Nat) : RateLimitEntry × Except ServiceError Unit :=
  let elapsed := now - entry.windowStart
  let shouldReset := limiter.total < elapsed ∨ (limiter.window < elapsed ∧ entry.attempts < limiter.maxAttempts)
  let entry := if shouldReset then ⟨0, now⟩ else entry
  if limiter.maxAttempts ≤ entry.attempts then
    let remaining := limiter.total - elapsed
    if 0 < remaining then (entry, .error (tooManyAttempts remaining)) else (⟨1, now⟩, .ok ())
  else ({ entry with attempts := entry.attempts + 1 }, .ok ())

/-- The sum of the two durations panics when it overflows, after the bucket is made unless the capacity is reached. -/
def checkAndRecordFailure (entries : RateLimitEntries) (key : String) (now : Nat) :
    RateLimitEntries × Except ServiceError Unit :=
  if !limiter.enabled then (entries, .ok ())
  else
    let key := limiter.bucketKey key
    match addU64 limiter.windowSecs limiter.lockoutSecs with
    | none =>
      (if rateLimiterMaxEntries ≤ entries.len then entries else entries.insert key ((entries.get? key).getD ⟨0, now⟩),
        .error .panicked)
    | some _ =>
      let entries := pruneEntries limiter.total now entries
      let (entry, answer) := limiter.countAttempt ((entries.get? key).getD ⟨0, now⟩) now
      (entries.insert key entry, answer)

def reset (entries : RateLimitEntries) (key : String) : RateLimitEntries :=
  if !limiter.enabled then entries else entries.remove (limiter.bucketKey key)

/-- The key counts by its bucket alone. -/
theorem check_of_bucketKey {key key' : String} (h : limiter.bucketKey key' = limiter.bucketKey key)
    (entries : RateLimitEntries) (now : Nat) :
    limiter.checkAndRecordFailure entries key' now = limiter.checkAndRecordFailure entries key now := by
  unfold checkAndRecordFailure
  rw [h]

/-- It counts, from one attempt on, and its durations add up. -/
structure Counts : Prop where
  enabled : limiter.enabled = true
  one_le_max : 1 ≤ limiter.maxAttempts
  fits : limiter.windowSecs + limiter.lockoutSecs < 2 ^ 64

variable {limiter}

/-- Its limits as those of a fixed window. -/
def windowPolicy (h : limiter.Counts) : WindowPolicy where
  max := limiter.maxAttempts
  window := limiter.window
  total := limiter.total
  one_le_max := h.one_le_max
  window_le_total := Nat.mul_le_mul_right _ (Nat.le_add_right _ _)

end LoginRateLimiter

/-! ## A bucket is a window -/

def RateLimitEntry.ofWindow (w : Window) : RateLimitEntry := ⟨w.count, w.start⟩

theorem RateLimitEntry.ofWindow_inj {w v : Window} (h : RateLimitEntry.ofWindow w = .ofWindow v) : w = v := by
  unfold RateLimitEntry.ofWindow at h
  injection h with hcount hstart
  cases w
  cases v
  exact congr (congrArg Window.mk hstart) hcount

/-- The bucket is the window, unless it lapsed and was dropped. -/
def Tracks (p : WindowPolicy) (now : Nat) : Option RateLimitEntry → Option Window → Prop
  | some e, some w => e = .ofWindow w ∧ w.start ≤ now
  | some _, none => False
  | none, some w => w.start + p.total < now
  | none, none => True

theorem Tracks.wait {p : WindowPolicy} {now now' : Nat} {entry : Option RateLimitEntry} {w : Option Window}
    (h : Tracks p now entry w) (hle : now ≤ now') : Tracks p now' entry w := by
  cases entry with
  | none =>
    cases w with
    | none => trivial
    | some w => exact Nat.lt_of_lt_of_le h hle
  | some e =>
    cases w with
    | none => exact h
    | some w => exact ⟨h.1, Nat.le_trans h.2 hle⟩

theorem Tracks.start_le {p : WindowPolicy} {now : Nat} {entry : Option RateLimitEntry} {w : Window}
    (h : Tracks p now entry (some w)) : w.start ≤ now := by
  cases entry with
  | none =>
    have hover : w.start + p.total < now := h
    omega
  | some e => exact h.2

/-- A window that can still lock has its bucket. -/
theorem Tracks.entry_of_le {p : WindowPolicy} {now : Nat} {entry : Option RateLimitEntry} {v : Window}
    (h : Tracks p now entry (some v)) (hle : now ≤ v.start + p.total) :
    entry = some (.ofWindow v) ∧ v.start ≤ now := by
  cases entry with
  | none =>
    have hover : v.start + p.total < now := h
    omega
  | some e => exact ⟨congrArg some h.1, h.2⟩

/-- A bucket that tracks a window still does when the lapsed ones have left. -/
theorem Tracks.prune {p : WindowPolicy} {now : Nat} {entries : RateLimitEntries} {b : String} {w : Option Window}
    (h : Tracks p now (entries.get? b) w) : Tracks p now ((pruneEntries p.total now entries).get? b) w := by
  unfold pruneEntries
  split
  · rw [HashMap.get?_retain]
    cases hget : entries.get? b with
    | none =>
      rw [hget] at h
      exact h
    | some e =>
      rw [hget] at h
      cases w with
      | none => exact h.elim
      | some w =>
        obtain ⟨rfl, hstart⟩ := h
        have hread : (RateLimitEntry.ofWindow w).windowStart = w.start := rfl
        by_cases hlapsed : now - w.start ≤ p.total
        · simp only [Option.filter_some, hread, decide_eq_true hlapsed, if_true]
          exact ⟨rfl, hstart⟩
        · have hover : w.start + p.total < now := by omega
          simp only [Option.filter_some, hread, decide_eq_false hlapsed, Bool.false_eq_true, if_false]
          exact hover
  · exact h

namespace LoginRateLimiter
variable {limiter : LoginRateLimiter} (h : limiter.Counts)

/-- The answer of a window. -/
def answerOf (w : Option Window) (now : Nat) : Except ServiceError Unit :=
  match (windowPolicy h).refuses w now with
  | none => .ok ()
  | some remaining => .error (tooManyAttempts remaining)

theorem answerOf_of_none {w : Option Window} {now : Nat} (hnone : (windowPolicy h).refuses w now = none) :
    answerOf h w now = .ok () := by
  unfold answerOf
  rw [hnone]

theorem answerOf_of_some {w : Option Window} {now remaining : Nat} (hsome : (windowPolicy h).refuses w now = some remaining) :
    answerOf h w now = .error (tooManyAttempts remaining) := by
  unfold answerOf
  rw [hsome]

include h in
theorem countAttempt_fresh (now : Nat) : limiter.countAttempt ⟨0, now⟩ now = (.ofWindow ⟨now, 1⟩, .ok ()) := by
  have hpos := h.one_le_max
  unfold countAttempt
  simp only [Nat.sub_self, Nat.not_lt_zero, false_and, or_self, if_false]
  rw [if_neg (by omega)]
  rfl

theorem countAttempt_of_full {v : Window} {now : Nat} (hfull : (windowPolicy h).max ≤ v.count)
    (hstart : v.start ≤ now) (hlocked : now < v.start + (windowPolicy h).total) :
    limiter.countAttempt (.ofWindow v) now =
      (.ofWindow v, .error (tooManyAttempts (v.start + (windowPolicy h).total - now))) := by
  have hmax : (windowPolicy h).max = limiter.maxAttempts := rfl
  have htotal : (windowPolicy h).total = limiter.total := rfl
  have hkept : ¬ (limiter.total < now - v.start ∨ (limiter.window < now - v.start ∧ v.count < limiter.maxAttempts)) := by
    omega
  have hremaining : limiter.total - (now - v.start) = v.start + limiter.total - now := by omega
  have hleft : 0 < limiter.total - (now - v.start) := by omega
  unfold countAttempt RateLimitEntry.ofWindow
  dsimp only
  rw [if_neg hkept, if_pos (hmax ▸ hfull), if_pos hleft, hremaining]
  rfl

theorem countAttempt_of_room {v : Window} {now : Nat} (hroom : v.count < (windowPolicy h).max)
    (hopen : now ≤ v.start + (windowPolicy h).window) :
    limiter.countAttempt (.ofWindow v) now = (.ofWindow ⟨v.start, v.count + 1⟩, .ok ()) := by
  have hmax : (windowPolicy h).max = limiter.maxAttempts := rfl
  have hwindow : (windowPolicy h).window = limiter.window := rfl
  have htotal : (windowPolicy h).total = limiter.total := rfl
  have hle := (windowPolicy h).window_le_total
  have hkept : ¬ (limiter.total < now - v.start ∨ (limiter.window < now - v.start ∧ v.count < limiter.maxAttempts)) := by
    omega
  unfold countAttempt RateLimitEntry.ofWindow
  dsimp only
  rw [if_neg hkept, if_neg (Nat.not_le_of_lt (hmax ▸ hroom))]

theorem countAttempt_of_lapsed {v : Window} {now : Nat} (hlapsed : (windowPolicy h).Lapsed v now) :
    limiter.countAttempt (.ofWindow v) now = (.ofWindow ⟨now, 1⟩, .ok ()) := by
  have hpos := h.one_le_max
  have hmax : (windowPolicy h).max = limiter.maxAttempts := rfl
  have hwindow : (windowPolicy h).window = limiter.window := rfl
  have htotal : (windowPolicy h).total = limiter.total := rfl
  have hempty : ¬ limiter.maxAttempts ≤ 0 := by omega
  unfold countAttempt RateLimitEntry.ofWindow
  dsimp only
  by_cases hpast : limiter.total < now - v.start ∨ (limiter.window < now - v.start ∧ v.count < limiter.maxAttempts)
  · rw [if_pos hpast]
    exact if_neg hempty
  · -- full, and at the very end of its lockout
    have hfull : limiter.maxAttempts ≤ v.count := by
      rcases hlapsed with ⟨hfull, -⟩ | ⟨hroom, hover⟩ <;> omega
    have hover : ¬ 0 < limiter.total - (now - v.start) := by
      rcases hlapsed with ⟨-, hover⟩ | ⟨hroom, -⟩ <;> omega
    rw [if_neg hpast, if_pos hfull, if_neg hover]

/-- **An attempt on a bucket is one on its window.** -/
theorem countAttempt_spec {entry : Option RateLimitEntry} {w : Option Window} {now : Nat}
    (htracks : Tracks (windowPolicy h) now entry w) :
    limiter.countAttempt (entry.getD ⟨0, now⟩) now =
      (.ofWindow ((windowPolicy h).next w now), answerOf h w now) := by
  have hle := (windowPolicy h).window_le_total
  rcases next_cases (p := windowPolicy h) w now with ⟨v, rfl, hfull, hlocked, hrefuses, hnext⟩ |
    ⟨v, rfl, hroom, hopen, hrefuses, hnext⟩ | ⟨hlapsed, hrefuses, hnext⟩
  · obtain ⟨rfl, hstart⟩ := htracks.entry_of_le (Nat.le_of_lt hlocked)
    rw [answerOf_of_some h hrefuses, hnext]
    exact countAttempt_of_full h hfull hstart hlocked
  · obtain ⟨rfl, hstart⟩ := htracks.entry_of_le (Nat.le_trans hopen (Nat.add_le_add_left hle _))
    rw [answerOf_of_none h hrefuses, hnext]
    exact countAttempt_of_room h hroom hopen
  · rw [answerOf_of_none h hrefuses, hnext]
    cases entry with
    | none => exact countAttempt_fresh h now
    | some e =>
      cases w with
      | none => exact htracks.elim
      | some v =>
        obtain ⟨rfl, -⟩ := htracks
        exact countAttempt_of_lapsed h (hlapsed v rfl)

include h in
/-- A limiter that counts takes one attempt on the bucket that is left when the lapsed ones are dropped. -/
theorem check_eq (entries : RateLimitEntries) (key : String) (now : Nat) :
    limiter.checkAndRecordFailure entries key now =
      ((pruneEntries limiter.total now entries).insert (limiter.bucketKey key)
          (limiter.countAttempt (((pruneEntries limiter.total now entries).get? (limiter.bucketKey key)).getD ⟨0, now⟩) now).1,
        (limiter.countAttempt (((pruneEntries limiter.total now entries).get? (limiter.bucketKey key)).getD ⟨0, now⟩) now).2) := by
  have hsum : addU64 limiter.windowSecs limiter.lockoutSecs = some (limiter.windowSecs + limiter.lockoutSecs) := if_pos h.fits
  unfold checkAndRecordFailure
  rw [h.enabled, hsum]
  rfl

/-- What a check does to a bucket and answers. -/
theorem check_spec {entries : RateLimitEntries} {key : String} {now : Nat} {w : Option Window}
    (htracks : Tracks (windowPolicy h) now (entries.get? (limiter.bucketKey key)) w) :
    (limiter.checkAndRecordFailure entries key now).2 = answerOf h w now ∧
      (limiter.checkAndRecordFailure entries key now).1.get? (limiter.bucketKey key) =
        some (.ofWindow ((windowPolicy h).next w now)) := by
  have hspec := countAttempt_spec h (Tracks.prune htracks)
  have htotal : (windowPolicy h).total = limiter.total := rfl
  rw [htotal] at hspec
  rw [check_eq h, hspec]
  exact ⟨rfl, (HashMap.get?_insert _ _ _ _).trans (if_pos rfl)⟩

/-- A check leaves the windows of the other buckets. -/
theorem check_other {entries : RateLimitEntries} {key b : String} {now : Nat} {w : Option Window}
    (hne : limiter.bucketKey key ≠ b) (htracks : Tracks (windowPolicy h) now (entries.get? b) w) :
    Tracks (windowPolicy h) now ((limiter.checkAndRecordFailure entries key now).1.get? b) w := by
  rw [check_eq h]
  dsimp only
  rw [HashMap.get?_insert_of_ne _ _ (Ne.symm hne)]
  exact Tracks.prune htracks

end LoginRateLimiter
end Service
end Kirino
