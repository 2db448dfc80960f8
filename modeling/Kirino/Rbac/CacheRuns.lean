import Kirino.Lib.BoundedHeap
import Kirino.Lib.Machine
import Kirino.Rbac.Cache
/-!
# CacheRuns — the permission cache over any sequence of calls (`rbac/cache.rs`)

Every entry was written by the latest write of its key that no covering invalidation followed (`Recorded`), so a read
answers from that write alone.  A write that has to make room leaves exactly as many entries as fit: the live ones that
expire last (`makesRoom_evict`).
-/
namespace Kirino
namespace Rbac

open Lib (HashMap Machine Smallest keepSmallest)

/-! ## Making room -/

def live (now : Nat) (cache : HashMap CacheKey CacheEntry) : HashMap CacheKey CacheEntry :=
  cache.retain (fun _ entry => decide (now < entry.expiresAt))

/-- What is left after making room at `now`: live entries, unchanged, as many as fit, and none that expires after a
live entry left out. -/
structure MakesRoom (maxEntries now : Nat) (cache cache' : HashMap CacheKey CacheEntry) : Prop where
  kept : ∀ k e, cache'.get? k = some e → cache.get? k = some e ∧ now < e.expiresAt
  len : cache'.len = min (live now cache).len maxEntries
  soonest : ∀ k e k' e', cache.get? k = some e → now < e.expiresAt → cache'.get? k = none → cache'.get? k' = some e' →
    e.expiresAt ≤ e'.expiresAt

theorem soonestExpiring_eq (excess : Nat) (entries : List (CacheKey × CacheEntry)) :
    soonestExpiring excess entries = keepSmallest excess (entries.map heapItem) := by
  unfold soonestExpiring keepSmallest
  rw [List.foldl_map]
  rfl

theorem nodup_heapItems (m : HashMap CacheKey CacheEntry) : (m.entries.map heapItem).Nodup := by
  apply List.Nodup.of_map HeapItem.key
  rw [List.map_map]
  exact m.nodup

/-- **The victims are the soonest-expiring entries**, as many as asked for. -/
theorem smallest_soonestExpiring (excess : Nat) (m : HashMap CacheKey CacheEntry) :
    Smallest excess (m.entries.map heapItem) (soonestExpiring excess m.entries) := by
  rw [soonestExpiring_eq]
  exact Lib.smallest_keepSmallest excess (nodup_heapItems m)

theorem nodup_victims (excess : Nat) (m : HashMap CacheKey CacheEntry) :
    ((soonestExpiring excess m.entries).map HeapItem.key).Nodup ∧
      (soonestExpiring excess m.entries).map HeapItem.key ⊆ m.keys := by
  have hsmall := smallest_soonestExpiring excess m
  have hitem : ∀ x ∈ soonestExpiring excess m.entries, ∃ e ∈ m.entries, heapItem e = x := fun x hx =>
    List.mem_map.1 (hsmall.subset hx)
  constructor
  · refine List.Nodup.map_on (fun x hx y hy hxy => ?_) hsmall.nodup
    obtain ⟨e, he, rfl⟩ := hitem x hx
    obtain ⟨e', he', rfl⟩ := hitem y hy
    rw [List.inj_on_of_nodup_map m.nodup he he' hxy]
  · intro k hk
    obtain ⟨x, hx, rfl⟩ := List.mem_map.1 hk
    obtain ⟨e, he, rfl⟩ := hitem x hx
    exact List.mem_map.2 ⟨e, he, rfl⟩

theorem get?_live (now : Nat) (cache : HashMap CacheKey CacheEntry) (k : CacheKey) (e : CacheEntry) :
    (live now cache).get? k = some e ↔ cache.get? k = some e ∧ now < e.expiresAt := by
  unfold live
  rw [HashMap.get?_retain_eq_some, decide_eq_true_iff]

theorem heapItem_le {e e' : CacheKey × CacheEntry} (h : heapItem e ≤ heapItem e') : e.2.expiresAt ≤ e'.2.expiresAt := by
  unfold heapItem at h
  rw [Prod.Lex.toLex_le_toLex] at h
  rcases h with hlt | ⟨heq, -⟩
  · exact le_of_lt hlt
  · exact le_of_eq heq

theorem victim_expires_first {excess : Nat} {m : HashMap CacheKey CacheEntry} {k k' : CacheKey} {e e' : CacheEntry}
    (he : m.get? k = some e) (he' : m.get? k' = some e')
    (hk : k ∈ (soonestExpiring excess m.entries).map HeapItem.key)
    (hk' : k' ∉ (soonestExpiring excess m.entries).map HeapItem.key) : e.expiresAt ≤ e'.expiresAt := by
  have hsmall := smallest_soonestExpiring excess m
  obtain ⟨x, hx, hxk⟩ := List.mem_map.1 hk
  obtain ⟨⟨k₀, e₀⟩, hmem, rfl⟩ := List.mem_map.1 (hsmall.subset hx)
  obtain rfl : k₀ = k := hxk
  obtain rfl : e₀ = e := Option.some.inj (((m.get?_eq_some_iff k₀ e₀).2 hmem).symm.trans he)
  have hout : heapItem (k', e') ∉ soonestExpiring excess m.entries := fun h => hk' (List.mem_map.2 ⟨_, h, rfl⟩)
  have hitem : heapItem (k', e') ∈ m.entries.map heapItem :=
    List.mem_map.2 ⟨_, (m.get?_eq_some_iff k' e').1 he', rfl⟩
  exact heapItem_le (hsmall.least _ hitem hout _ hx)

/-- **An eviction makes room.** -/
theorem makesRoom_evict (maxEntries now : Nat) (cache : HashMap CacheKey CacheEntry) :
    MakesRoom maxEntries now cache (evict maxEntries now cache) := by
  have hevict : evict maxEntries now cache = if (live now cache).len > maxEntries then
      ((soonestExpiring ((live now cache).len - maxEntries) (live now cache).entries).map HeapItem.key).foldl
        HashMap.remove (live now cache)
      else live now cache := rfl
  refine ⟨fun k e h => get?_evict h, ?_, fun k e k' e' he hlt hnone hsome => ?_⟩
  · rw [hevict]
    split
    · obtain ⟨hnodup, hsub⟩ := nodup_victims ((live now cache).len - maxEntries) (live now cache)
      have hcount := HashMap.len_foldl_remove _ hnodup (live now cache) hsub
      have hlength := (smallest_soonestExpiring ((live now cache).len - maxEntries) (live now cache)).length
      rw [List.length_map] at hcount hlength
      have hlen : (live now cache).entries.length = (live now cache).len := rfl
      omega
    · omega
  · have hk : (live now cache).get? k = some e := (get?_live now cache k e).2 ⟨he, hlt⟩
    rw [hevict] at hnone hsome
    split at hnone
    · rename_i hgt
      rw [if_pos hgt, HashMap.get?_foldl_remove] at hsome
      rw [HashMap.get?_foldl_remove] at hnone
      split at hsome
      · cases hsome
      · rename_i hk'
        split at hnone
        · rename_i hvictim
          exact victim_expires_first hk hsome hvictim hk'
        · cases hk.symm.trans hnone
    · cases hk.symm.trans hnone

/-! ## Runs -/

inductive CacheEvent (S P : Type) where
  | set (clock : SetClock) (s : S) (p : P) (granted : Bool)
  | get (now : Nat) (s : S) (p : P)
  | invalidateSubject (s : S)
  | invalidateAll

section Runs
variable {S P : Type} [Subject S] [Permission P]

/-- The cache as a machine: a read answers what it finds. -/
def cacheMachine : Machine TtlPermissionCache (CacheEvent S P) (Option Bool) where
  step c
    | .set clock s p granted => c.set clock s p granted
    | .get _ _ _ => c
    | .invalidateSubject s => c.invalidateSubject s
    | .invalidateAll => c.invalidateAll
  out c
    | .get now s p => c.get now s p
    | _ => none

/-- The event writes the key, or drops it for certain. -/
def CacheEvent.Settles (k : CacheKey) : CacheEvent S P → Prop
  | .set _ s p _ => TtlPermissionCache.key s p = k
  | .get _ _ _ => False
  | .invalidateSubject s => subjectId s = k.1
  | .invalidateAll => True

/-- The event wrote the entry for the key. -/
def CacheEvent.Wrote (ttl : Nat) (k : CacheKey) (e : CacheEntry) : CacheEvent S P → Prop
  | .set clock s p granted => TtlPermissionCache.key s p = k ∧ e = ⟨granted, clock.insert + ttl⟩
  | _ => False

/-- **The latest event that settles the key wrote the entry.** -/
def LatestWrote (ttl : Nat) (k : CacheKey) (e : CacheEntry) (es : List (CacheEvent S P)) : Prop :=
  ∃ pre event post, es = pre ++ event :: post ∧ event.Wrote ttl k e ∧ ∀ later ∈ post, ¬ later.Settles k

theorem latestWrote_append {ttl : Nat} {k : CacheKey} {e : CacheEntry} {es : List (CacheEvent S P)}
    (h : LatestWrote ttl k e es) {event : CacheEvent S P} (hevent : ¬ event.Settles k) :
    LatestWrote ttl k e (es ++ [event]) := by
  obtain ⟨pre, w, post, rfl, hw, hpost⟩ := h
  refine ⟨pre, w, post ++ [event], by simp, hw, fun later hlater => ?_⟩
  rcases List.mem_append.1 hlater with hlater | hlater
  · exact hpost later hlater
  · exact List.mem_singleton.1 hlater ▸ hevent

/-- Every entry is what the latest event that settled its key wrote. -/
def Recorded (es : List (CacheEvent S P)) (c : TtlPermissionCache) : Prop :=
  ∀ k e, c.cache.get? k = some e → LatestWrote c.ttl k e es

theorem recorded_cacheStep {es : List (CacheEvent S P)} {c : TtlPermissionCache} (h : Recorded es c)
    (event : CacheEvent S P) : Recorded (es ++ [event]) (cacheMachine.step c event) := by
  intro k e hk
  cases event with
  | set clock s p granted =>
    rcases TtlPermissionCache.get?_set hk with ⟨rfl, rfl⟩ | ⟨hne, hold⟩
    · exact ⟨es, _, [], rfl, ⟨rfl, rfl⟩, nofun⟩
    · exact latestWrote_append (h k e hold) (Ne.symm hne)
  | get now s p => exact latestWrote_append (h k e hk) not_false
  | invalidateSubject s =>
    have hget : (c.invalidateSubject s).cache.get? k = some e := hk
    rw [TtlPermissionCache.get?_invalidateSubject] at hget
    split at hget
    · cases hget
    · rename_i hne
      exact latestWrote_append (h k e hget) (Ne.symm hne)
  | invalidateAll => cases hk

theorem cacheStep_config (c : TtlPermissionCache) (event : CacheEvent S P) :
    (cacheMachine.step c event).maxEntries = c.maxEntries ∧ (cacheMachine.step c event).ttl = c.ttl := by
  cases event <;> exact ⟨rfl, rfl⟩

/-- A cache as it is built, with its cap. -/
def coldCache (ttl maxEntries : Nat) : TtlPermissionCache := (TtlPermissionCache.new ttl).withMaxEntries maxEntries

theorem run_config (ttl maxEntries : Nat) (es : List (CacheEvent S P)) :
    (cacheMachine.run (coldCache ttl maxEntries) es).maxEntries = maxEntries ∧
      (cacheMachine.run (coldCache ttl maxEntries) es).ttl = ttl := by
  refine cacheMachine.run_invariant (fun _ _ => True) (fun c => c.maxEntries = maxEntries ∧ c.ttl = ttl)
    (fun c event h _ => ?_) _ es ⟨rfl, rfl⟩ (cacheMachine.along_of_forall _ _ _ (fun _ _ _ => trivial))
  obtain ⟨hmax, httl⟩ := cacheStep_config c event
  exact ⟨hmax.trans h.1, httl.trans h.2⟩

/-- **In every run, every entry is what the latest event that settled its key wrote.** -/
theorem recorded_cacheRun (ttl maxEntries : Nat) (es : List (CacheEvent S P)) :
    Recorded es (cacheMachine.run (coldCache ttl maxEntries) es) := by
  induction es using List.reverseRecOn with
  | nil =>
    intro k e h
    cases h
  | append_singleton es event ih =>
    rw [Machine.run_append]
    exact recorded_cacheStep ih event

/-- **A write keeps the cap**, and where its entry does not fit it makes room. -/
theorem set_makesRoom (c : TtlPermissionCache) (clock : SetClock) (s : S) (p : P) (granted : Bool) :
    (c.set clock s p granted).cache.len ≤ c.maxEntries ∧
      ((c.cache.insert (TtlPermissionCache.key s p) ⟨granted, clock.insert + c.ttl⟩).len ≤ c.maxEntries →
        (c.set clock s p granted).cache = c.cache.insert (TtlPermissionCache.key s p) ⟨granted, clock.insert + c.ttl⟩) ∧
      (c.maxEntries < (c.cache.insert (TtlPermissionCache.key s p) ⟨granted, clock.insert + c.ttl⟩).len →
        MakesRoom c.maxEntries clock.evict
          (c.cache.insert (TtlPermissionCache.key s p) ⟨granted, clock.insert + c.ttl⟩)
          (c.set clock s p granted).cache) := by
  rw [TtlPermissionCache.set_cache]
  generalize c.cache.insert (TtlPermissionCache.key s p) ⟨granted, clock.insert + c.ttl⟩ = written
  dsimp only
  have hroom := makesRoom_evict c.maxEntries clock.evict written
  by_cases hgt : written.len > c.maxEntries
  · rw [if_pos hgt]
    have hlen := hroom.len
    exact ⟨by omega, fun hle => absurd hgt (by omega), fun _ => hroom⟩
  · rw [if_neg hgt]
    exact ⟨by omega, fun _ => rfl, fun hlt => absurd hlt hgt⟩

/-- **The cache over any run.**  A read that answers `b` answers what the latest write of its key stored, with no
covering invalidation since and less than one TTL ago.  A write leaves at most `maxEntries` entries: where its entry
fits it changes that entry alone, and where it does not it makes room. -/
theorem cache_correct (ttl maxEntries : Nat) (es : List (CacheEvent S P)) :
    (∀ i now s p b, es[i]? = some (.get now s p) →
      (cacheMachine.outs (coldCache ttl maxEntries) es)[i]? = some (some b) →
      ∃ before clock s' p' after, es.take i = before ++ .set clock s' p' b :: after ∧
        TtlPermissionCache.key s' p' = TtlPermissionCache.key s p ∧
        (∀ later ∈ after, ¬ later.Settles (TtlPermissionCache.key s p)) ∧ now < clock.insert + ttl) ∧
    ∀ i clock s p granted, es[i]? = some (.set clock s p granted) →
      let c := cacheMachine.run (coldCache ttl maxEntries) (es.take i)
      let c' := cacheMachine.step c (.set clock s p granted)
      let written := c.cache.insert (TtlPermissionCache.key s p) ⟨granted, clock.insert + ttl⟩
      c'.cache.len ≤ maxEntries ∧ (written.len ≤ maxEntries → c'.cache = written) ∧
        (maxEntries < written.len → MakesRoom maxEntries clock.evict written c'.cache) := by
  constructor
  · intro i now s p b hi hout
    have hget := cacheMachine.out_of_getElem? hi hout
    obtain ⟨e, he, hlt, hgranted⟩ := TtlPermissionCache.get_eq_some hget
    obtain ⟨before, event, after, hsplit, hwrote, hafter⟩ := recorded_cacheRun ttl maxEntries (es.take i) _ e he
    rw [(run_config ttl maxEntries (es.take i)).2] at hwrote
    cases event with
    | set clock s' p' granted =>
      obtain ⟨hkey, rfl⟩ := hwrote
      obtain rfl : granted = b := hgranted
      exact ⟨before, clock, s', p', after, hsplit, hkey, hafter, hlt⟩
    | get now s p => cases hwrote
    | invalidateSubject s => cases hwrote
    | invalidateAll => cases hwrote
  · intro i clock s p granted _
    have h := set_makesRoom (cacheMachine.run (coldCache ttl maxEntries) (es.take i)) clock s p granted
    obtain ⟨hmax, httl⟩ := run_config ttl maxEntries (es.take i)
    rw [hmax, httl] at h
    exact h

end Runs

end Rbac
end Kirino
