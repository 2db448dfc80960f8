import Kirino.Lib.HashMap
import Kirino.Lib.Instants
import Kirino.Rbac.Dynamic.Trust
/-!
# Retention — the sweep of stale trust records (`rbac/dynamic/trust.rs`)

A sweep removes the records that were last updated before a cutoff, the clock less the age that it is given.  An age that
is too long for a duration is taken for one year; one that is a duration, but longer than the past, has no cutoff, and the
sweep panics (`sweepStale_eq_none_iff`).
-/
namespace Kirino
namespace Rbac
namespace Dynamic

open Lib (HashMap earliestInstant instantBack)

/-- The records by delegator. -/
abbrev InMemoryTrustScoreStore := HashMap String TrustScore

def Duration.isZero (d : Duration) : Bool := decide (d.nanos = 0)

/-- `chrono::Duration::from_std`, none out of its range. -/
def Duration.fromStd (d : Duration) : Option Nat := if d.nanos ≤ Lib.maxDuration then some d.nanos else none

def daysNanos (days : Nat) : Nat := days * (24 * 3600 * 10 ^ 9)

/-- The age that a sweep goes by. -/
def Duration.chronoMaxAge (maxAge : Duration) : Nat := maxAge.fromStd.getD (daysNanos 365)

/-- The ids of the records last updated before the cutoff, in map order. -/
def staleIds (store : InMemoryTrustScoreStore) (cutoff : Int) : List String :=
  (store.entries.filter (fun e => decide (e.2.lastUpdated < cutoff))).map Prod.fst

/-- The store and the ids that a sweep leaves and returns, no ids where it panics. -/
def sweepStale (store : InMemoryTrustScoreStore) (maxAge : Duration) (now : Int) :
    InMemoryTrustScoreStore × Option (List String) :=
  if maxAge.isZero then (store, some [])
  else
    match instantBack now maxAge.chronoMaxAge with
    | none => (store, none)
    | some cutoff =>
      let stale := staleIds store cutoff
      (stale.foldl HashMap.remove store, some stale)

/-! ## What a sweep removes -/

/-- The record is older than the age that the sweep goes by; no record is older than an age of zero. -/
def Stale (maxAge : Duration) (now : Int) (trust : TrustScore) : Prop :=
  maxAge.nanos ≠ 0 ∧ (maxAge.chronoMaxAge : Int) < now - trust.lastUpdated

/-- **A sweep is total and exact**: it returns the ids of the stale records, each once, and removes just these records. -/
structure SweepsExactly (store : InMemoryTrustScoreStore) (maxAge : Duration) (now : Int) : Prop where
  returns : ∃ ids, (sweepStale store maxAge now).2 = some ids ∧ ids.Nodup ∧
    ∀ id, id ∈ ids ↔ ∃ trust, store.get? id = some trust ∧ Stale maxAge now trust
  removes : ∀ id trust, store.get? id = some trust → Stale maxAge now trust →
    (sweepStale store maxAge now).1.get? id = none
  keeps : ∀ id, (∀ trust, store.get? id = some trust → ¬ Stale maxAge now trust) →
    (sweepStale store maxAge now).1.get? id = store.get? id

variable {store : InMemoryTrustScoreStore} {maxAge : Duration} {now : Int}

theorem nodup_staleIds (store : InMemoryTrustScoreStore) (cutoff : Int) : (staleIds store cutoff).Nodup :=
  store.nodup_filter _

theorem mem_staleIds {cutoff : Int} {id : String} :
    id ∈ staleIds store cutoff ↔ ∃ trust, store.get? id = some trust ∧ trust.lastUpdated < cutoff := by
  unfold staleIds
  rw [List.mem_map]
  constructor
  · rintro ⟨⟨id, trust⟩, hmem, rfl⟩
    obtain ⟨hmem, hstale⟩ := List.mem_filter.1 hmem
    exact ⟨trust, (store.get?_eq_some_iff _ _).2 hmem, of_decide_eq_true hstale⟩
  · rintro ⟨trust, hget, hstale⟩
    exact ⟨(id, trust), List.mem_filter.2 ⟨(store.get?_eq_some_iff _ _).1 hget, decide_eq_true hstale⟩, rfl⟩

theorem isZero_iff : maxAge.isZero = true ↔ maxAge.nanos = 0 := by
  unfold Duration.isZero
  simp

/-- **A sweep panics** exactly when its age is longer than the past. -/
theorem sweepStale_eq_none_iff : (sweepStale store maxAge now).2 = none ↔
    maxAge.nanos ≠ 0 ∧ now - maxAge.chronoMaxAge < earliestInstant := by
  rw [← Lib.instantBack_eq_none_iff, ne_eq, ← isZero_iff]
  unfold sweepStale
  by_cases hzero : maxAge.isZero = true
  · rw [if_pos hzero]
    simp [hzero]
  · rw [if_neg hzero]
    cases instantBack now maxAge.chronoMaxAge with
    | none => simp [hzero]
    | some cutoff => simp

/-- A sweep of age zero. -/
theorem sweepStale_of_zero (hzero : maxAge.nanos = 0) : sweepStale store maxAge now = (store, some []) := by
  unfold sweepStale
  rw [if_pos (isZero_iff.2 hzero)]

/-- A sweep with a cutoff. -/
theorem sweepStale_of_le (store : InMemoryTrustScoreStore) (hage : maxAge.nanos ≠ 0)
    (hpast : earliestInstant ≤ now - maxAge.chronoMaxAge) :
    sweepStale store maxAge now =
      ((staleIds store (now - maxAge.chronoMaxAge)).foldl HashMap.remove store,
        some (staleIds store (now - maxAge.chronoMaxAge))) := by
  unfold sweepStale instantBack
  rw [if_neg (fun hzero => hage (isZero_iff.1 hzero)), if_neg (Int.not_lt.2 hpast)]

theorem mem_staleIds_iff_stale (hage : maxAge.nanos ≠ 0) {id : String} :
    id ∈ staleIds store (now - maxAge.chronoMaxAge) ↔ ∃ trust, store.get? id = some trust ∧ Stale maxAge now trust := by
  rw [mem_staleIds]
  refine exists_congr (fun trust => and_congr_right (fun _ => ?_))
  unfold Stale
  constructor
  · intro h
    exact ⟨hage, by omega⟩
  · rintro ⟨-, h⟩
    omega

/-- **A sweep is total and exact exactly when its age is zero or reaches back to an instant.** -/
theorem sweepStale_exact_iff (store : InMemoryTrustScoreStore) (maxAge : Duration) (now : Int) :
    SweepsExactly store maxAge now ↔ maxAge.nanos = 0 ∨ earliestInstant ≤ now - maxAge.chronoMaxAge := by
  constructor
  · intro h
    obtain ⟨ids, hids, -⟩ := h.returns
    by_contra hnot
    rw [not_or, Int.not_le] at hnot
    rw [sweepStale_eq_none_iff.2 hnot] at hids
    cases hids
  · intro h
    by_cases hage : maxAge.nanos = 0
    · have hnone : ∀ trust, ¬ Stale maxAge now trust := fun trust hstale => hstale.1 hage
      constructor
      · rw [sweepStale_of_zero hage]
        refine ⟨[], rfl, List.nodup_nil, fun id => ?_⟩
        simp [hnone]
      · intro id trust _ hstale
        exact absurd hstale (hnone trust)
      · intro id _
        rw [sweepStale_of_zero hage]
    · have hswept := sweepStale_of_le store hage (h.resolve_left hage)
      constructor
      · rw [hswept]
        exact ⟨_, rfl, nodup_staleIds store _, fun id => mem_staleIds_iff_stale hage⟩
      · intro id trust hget hstale
        rw [hswept, HashMap.get?_foldl_remove, if_pos ((mem_staleIds_iff_stale hage).2 ⟨trust, hget, hstale⟩)]
      · intro id hfresh
        rw [hswept, HashMap.get?_foldl_remove, if_neg]
        rintro hmem
        obtain ⟨trust, hget, hstale⟩ := (mem_staleIds_iff_stale hage).1 hmem
        exact hfresh trust hget hstale

/-- The ages that panic lie between the past and the longest duration, where the clock is a year past the first instant. -/
theorem sweepStale_panics_between (hclock : earliestInstant + daysNanos 365 ≤ now) :
    (sweepStale store maxAge now).2 = none ↔
      now - earliestInstant < maxAge.nanos ∧ maxAge.nanos ≤ Lib.maxDuration := by
  rw [sweepStale_eq_none_iff]
  unfold Duration.chronoMaxAge Duration.fromStd
  by_cases hfits : maxAge.nanos ≤ Lib.maxDuration
  · rw [if_pos hfits, Option.getD_some]
    constructor
    · rintro ⟨-, hpast⟩
      exact ⟨by omega, hfits⟩
    · rintro ⟨hpast, -⟩
      exact ⟨by omega, by omega⟩
  · rw [if_neg hfits, Option.getD_none]
    constructor
    · rintro ⟨-, hpast⟩
      omega
    · rintro ⟨-, h⟩
      exact absurd h hfits

/-- The longest duration of `chrono`: a retention of all the milliseconds of an `i64`. -/
def foreverRetention : Duration := ⟨(2 ^ 63 - 1) * 10 ^ 6⟩

/-- The sweep panics, over no record. -/
theorem sweepStale_not_exact : ¬ SweepsExactly HashMap.empty foreverRetention 0 := by
  intro h
  obtain ⟨ids, hids, -⟩ := h.returns
  have hnone : (sweepStale HashMap.empty foreverRetention 0).2 = none := by decide +kernel
  rw [hnone] at hids
  cases hids

end Dynamic
end Rbac
end Kirino
