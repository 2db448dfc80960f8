import Mathlib.Algebra.Order.BigOperators.Group.List
import Mathlib.Algebra.Order.Group.Nat
import Kirino.Rbac.Engine
import Kirino.Rbac.Store.Memory
/-!
# StoreError — what a failed store query leaves behind (`rbac/engine.rs`)

A failed query is answered with `false`, and the documentation promises that the failure is not cached.  The two exits
of the shared helper keep the promise; the exit after a failed role query falls through to the write of `false`, which
leaves the cache as it was only when the cache keeps nothing at all.
-/
namespace Kirino
namespace Rbac

open Lib (HashMap)

/-- The instants of a call, in the order it reads them. -/
def CheckClock.Ordered (clock : CheckClock) : Prop :=
  clock.read ≤ clock.set.existing ∧ clock.set.existing ≤ clock.set.insert ∧ clock.set.insert ≤ clock.set.evict

section Vanishing
variable {S P : Type} [Subject S] [Permission P]

theorem exists_expired (m : HashMap CacheKey CacheEntry) (now : Nat) :
    ∃ later, now ≤ later ∧ ∀ k e, m.get? k = some e → e.expiresAt < later := by
  refine ⟨now + (m.entries.map (fun e => e.2.expiresAt)).sum + 1, by omega, fun k e he => ?_⟩
  have hmem : e.expiresAt ∈ m.entries.map (fun e => e.2.expiresAt) :=
    List.mem_map.2 ⟨(k, e), (m.get?_eq_some_iff k e).1 he, rfl⟩
  have := List.le_sum_of_mem hmem
  omega

/-- **A write that leaves every lookup as it was, whatever the instant, is a write into a cache that keeps nothing.** -/
theorem keepsNothing_of_set {c : TtlPermissionCache} (s : S) (p : P) (granted : Bool) (now : Nat)
    (h : ∀ later, now ≤ later → ∀ k, (c.set ⟨later, later, later⟩ s p granted).cache.get? k = c.cache.get? k) :
    c.KeepsNothing := by
  obtain ⟨later, hnow, hexpired⟩ := exists_expired c.cache now
  have hsame := h later hnow
  let k := TtlPermissionCache.key s p
  let m := c.cache.insert k ⟨granted, later + c.ttl⟩
  have hkept : ¬ m.len ≤ c.maxEntries := by
    intro hle
    have hget := hsame k
    rw [TtlPermissionCache.set_cache] at hget
    dsimp only at hget
    rw [if_neg (Nat.not_lt.2 hle), HashMap.get?_insert_self] at hget
    have hlt : later + c.ttl < later := hexpired k _ hget.symm
    omega
  have hempty : ∀ k' e, c.cache.get? k' ≠ some e := by
    intro k' e he
    have hget := hsame k'
    rw [he, TtlPermissionCache.set_cache] at hget
    dsimp only at hget
    rw [if_pos (Nat.not_le.1 hkept)] at hget
    have hlive : later < e.expiresAt := (get?_evict hget).2
    have hdead : e.expiresAt < later := hexpired k' e he
    omega
  have hlen : c.cache.len = 0 := by
    refine Nat.le_zero.1 (HashMap.len_le_of_keys c.cache HashMap.empty (fun k' e he => ?_))
    exact absurd he (hempty k' e)
  have hone : m.len = 1 := by
    have hnil : c.cache.entries = [] := List.length_eq_zero_iff.1 hlen
    show (m.entries).length = 1
    simp [m, HashMap.insert, HashMap.remove, HashMap.retain, hnil]
  exact ⟨by omega, hlen⟩

end Vanishing

section
variable {A S P E : Type} [AssignmentStore A S P E] [Subject S] [Permission P] [DecidableEq P]

/-- At every instant from `now` on, the call denies, leaves every entry of the cache as it was, and made again once a
store without errors is there, it decides from that store's content. -/
def ErrorNotCached (path : CheckPath) (engine : RbacEngine A P) (now : Nat) (s : S) (p : P) : Prop :=
  ∀ clock : CheckClock, now ≤ clock.read → clock.Ordered →
    (checkOn path engine clock s p).1 = false ∧
    (∀ k, (checkOn path engine clock s p).2.cache.get? k = engine.cache.cache.get? k) ∧
    ∀ store : A, ErrorFree store → ∀ clock' : CheckClock, clock.read ≤ clock'.read →
      (checkOn path ⟨engine.roleRegistry, store, (checkOn path engine clock s p).2⟩ clock' s p).1 =
        decision engine.roleRegistry store path s p

theorem failedQuery_mono {engine : RbacEngine A P} {now now' : Nat} {s : S} {p : P} {q : StoreQuery}
    (h : failedQuery engine now s p = some q) (hnow : now ≤ now') : failedQuery engine now' s p = some q := by
  have hmiss := miss_of_failedQuery h
  have hmiss' := TtlPermissionCache.get_eq_none_mono (fun _ => rfl) hnow hmiss
  rw [failedQuery, hmiss] at h
  rw [failedQuery, hmiss']
  exact h

theorem errorNotCached_of_lookups {path : CheckPath} {engine : RbacEngine A P} {now : Nat} {s : S} {p : P}
    {q : StoreQuery} (hq : failedQuery engine now s p = some q)
    (h : ∀ clock : CheckClock, now ≤ clock.read → (checkOn path engine clock s p).1 = false ∧
      ∀ k, (checkOn path engine clock s p).2.cache.get? k = engine.cache.cache.get? k) :
    ErrorNotCached path engine now s p := by
  intro clock hnow _
  obtain ⟨hfalse, hsame⟩ := h clock hnow
  refine ⟨hfalse, hsame, fun store hstore clock' hlater => ?_⟩
  let after : RbacEngine A P := ⟨engine.roleRegistry, store, (checkOn path engine clock s p).2⟩
  have hmiss : after.cache.get clock'.read s p = none :=
    TtlPermissionCache.get_eq_none_mono hsame (Nat.le_trans hnow hlater) (miss_of_failedQuery hq)
  rw [checkOn_of_miss path hmiss (failedQuery_of_errorFree after hstore _ _ _)]

/-- **A failed call leaves the cache alone exactly when the failed query is not the role query**, or the cache keeps
nothing. -/
theorem errorNotCached_iff (path : CheckPath) (engine : RbacEngine A P) (now : Nat) (s : S) (p : P) (q : StoreQuery)
    (hq : failedQuery engine now s p = some q) :
    ErrorNotCached path engine now s p ↔ q ≠ .rolesOf ∨ engine.cache.KeepsNothing := by
  constructor
  · intro h
    by_cases hroles : q = .rolesOf
    · subst hroles
      refine Or.inr (keepsNothing_of_set s p false now (fun later hlater k => ?_))
      let clock := clockAt later
      have hfail : failedQuery engine clock.read s p = some .rolesOf := failedQuery_mono hq hlater
      have hsame := (h clock hlater ⟨Nat.le_refl _, Nat.le_refl _, Nat.le_refl _⟩).2.1 k
      rw [checkOn_of_failed_roles path hfail] at hsame
      exact hsame
    · exact Or.inl hroles
  · intro h
    refine errorNotCached_of_lookups hq (fun clock hnow => ?_)
    have hfail := failedQuery_mono hq hnow
    by_cases hroles : q = .rolesOf
    · subst hroles
      have hnothing := h.resolve_left (fun hne => hne rfl)
      rw [checkOn_of_failed_roles path hfail]
      refine ⟨rfl, fun k => ?_⟩
      rw [TtlPermissionCache.get?_set_of_keepsNothing hnothing, HashMap.get?_of_len_zero hnothing.2]
    · rw [checkOn_of_failed path hfail hroles]
      exact ⟨rfl, fun _ => rfl⟩

end

/-! ## Stores that fail -/

/-- An in-memory store one of whose queries may be down. -/
structure FailingStore (S P : Type) where
  rows : InMemoryAssignmentStore S P
  down : Option StoreQuery

instance {S P : Type} [Subject S] : AssignmentStore (FailingStore S P) S P String where
  rolesOf st s := if st.down = some .rolesOf then .error "store error" else .ok (st.rows.rolesOf s)
  extraPermissions st s :=
    if st.down = some .extraPermissions then .error "store error" else .ok (st.rows.extraPermissions s)
  deniedPermissions st s :=
    if st.down = some .deniedPermissions then .error "store error" else .ok (st.rows.deniedPermissions s)
  write st w := { st with rows := AssignmentStore.write st.rows w }

def failingEngine (q : StoreQuery) : RbacEngine (FailingStore String TestPerm) TestPerm :=
  ⟨testRegistry, ⟨viewerStore, some q⟩, TtlPermissionCache.new (fromSecs 300)⟩

theorem errorNotCached_denied : ErrorNotCached .flat (failingEngine .deniedPermissions) 0 "user" TestPerm.read :=
  (errorNotCached_iff .flat (failingEngine .deniedPermissions) 0 "user" .read .deniedPermissions (by decide)).2
    (Or.inl (by decide))

def recoveredStore : FailingStore String TestPerm := ⟨viewerStore, none⟩

/-- A viewer whose roles could not be read once is denied from the cache after the store has recovered. -/
theorem failed_roles_are_cached :
    failedQuery (failingEngine .rolesOf) 0 "user" TestPerm.read = some .rolesOf ∧
      ¬ ErrorNotCached .flat (failingEngine .rolesOf) 0 "user" TestPerm.read ∧
      ErrorFree recoveredStore ∧
      (checkOn .flat ⟨testRegistry, recoveredStore,
        (checkOn .flat (failingEngine .rolesOf) (clockAt 0) "user" TestPerm.read).2⟩ (clockAt 1)
        "user" TestPerm.read).1 = false ∧
      decision testRegistry recoveredStore .flat "user" TestPerm.read = true := by
  refine ⟨by decide, fun h => ?_, fun _ => ⟨rfl, rfl, rfl⟩, by decide, by decide⟩
  have hsame := (h (clockAt 0) (by decide) ⟨by decide, by decide, by decide⟩).2.1 ("user", "read")
  exact absurd hsame (by decide)

end Rbac
end Kirino
