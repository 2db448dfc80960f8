import Mathlib.Data.List.Sort
import Mathlib.Data.Prod.Lex
import Mathlib.Data.String.Basic
import Kirino.Lib.HashMap
import Kirino.Rbac.Traits
/-!
# Cache — the TTL permission cache (`rbac/cache.rs`)

An entry lives until its expiry instant; an expired entry reads as a miss and stays until a later write.  A write that
takes the cache over its cap drops the expired entries and, if that is not enough, the entries that expire soonest.
What every later module uses of it: a write adds its own entry and otherwise only drops entries (`get?_set`), and drops
none while there is room (`get?_set_of_room`).  Instants and durations are natural numbers of nanoseconds.
-/
namespace Kirino
namespace Rbac

open Lib (HashMap)

def fromSecs (secs : Nat) : Nat := secs * 1000000000

def defaultMaxCacheEntries : Nat := 10000

structure CacheEntry where
  granted : Bool
  expiresAt : Nat
deriving DecidableEq, Repr

abbrev CacheKey := String × String

structure TtlPermissionCache where
  cache : HashMap CacheKey CacheEntry
  maxEntries : Nat
  ttl : Nat

/-- The three instants a write reads, in the order it reads them. -/
structure SetClock where
  existing : Nat
  insert : Nat
  evict : Nat

section Heap

abbrev HeapItem := Nat ×ₗ (String ×ₗ String)

def heapItem (e : CacheKey × CacheEntry) : HeapItem := toLex (e.2.expiresAt, toLex e.1)

def HeapItem.key (x : HeapItem) : CacheKey := ofLex (ofLex x).2

/-- The max-heap, as its items in descending order: a push keeps the order, a pop takes the head. -/
def heapPush (heap : List HeapItem) (x : HeapItem) : List HeapItem := heap.orderedInsert (fun a b => b ≤ a) x

def soonestExpiring (excess : Nat) (entries : List (CacheKey × CacheEntry)) : List HeapItem :=
  entries.foldl (fun heap e =>
    let heap := heapPush heap (heapItem e)
    if heap.length > excess then heap.tail else heap) []

def evict (maxEntries : Nat) (now : Nat) (cache : HashMap CacheKey CacheEntry) : HashMap CacheKey CacheEntry :=
  let live := cache.retain (fun _ entry => decide (now < entry.expiresAt))
  if live.len > maxEntries then
    ((soonestExpiring (live.len - maxEntries) live.entries).map HeapItem.key).foldl HashMap.remove live
  else live

theorem get?_evict {maxEntries : Nat} {now : Nat} {cache : HashMap CacheKey CacheEntry} {k : CacheKey}
    {e : CacheEntry} (h : (evict maxEntries now cache).get? k = some e) :
    cache.get? k = some e ∧ now < e.expiresAt := by
  have hlive : (cache.retain (fun _ entry => decide (now < entry.expiresAt))).get? k = some e := by
    unfold evict at h
    dsimp only at h
    split at h
    · rw [HashMap.get?_foldl_remove] at h
      split at h
      · cases h
      · exact h
    · exact h
  rw [HashMap.get?_retain_eq_some] at hlive
  exact ⟨hlive.1, of_decide_eq_true hlive.2⟩

theorem get?_evict_single (now : Nat) (m : HashMap CacheKey CacheEntry) (hm : m.len = 0) (k k' : CacheKey)
    (e : CacheEntry) : (evict 0 now (m.insert k e)).get? k' = none := by
  have hnil : m.entries = [] := List.length_eq_zero_iff.1 hm
  have hentries : ((m.insert k e).retain (fun _ entry => decide (now < entry.expiresAt))).entries =
      if now < e.expiresAt then [(k, e)] else [] := by
    unfold HashMap.insert HashMap.remove HashMap.retain
    simp only [hnil, List.filter_nil, List.filter_cons, decide_eq_true_eq]
  unfold evict
  dsimp only
  by_cases hlive : now < e.expiresAt
  · rw [if_pos hlive] at hentries
    have hlen : ((m.insert k e).retain (fun _ entry => decide (now < entry.expiresAt))).len = 1 := by
      unfold HashMap.len
      rw [hentries]
      rfl
    rw [if_pos (by omega), HashMap.get?_foldl_remove, hlen, hentries]
    split
    · rfl
    · rename_i hk
      have hne : k ≠ k' := fun h => hk (by subst h; simp [soonestExpiring, heapPush, heapItem, HeapItem.key])
      cases hget : HashMap.get? _ k' with
      | none => rfl
      | some e' =>
        rw [HashMap.get?_eq_some_iff, hentries] at hget
        exact absurd (congrArg Prod.fst (List.mem_singleton.1 hget)).symm hne
  · rw [if_neg hlive] at hentries
    have hlen : ((m.insert k e).retain (fun _ entry => decide (now < entry.expiresAt))).len = 0 := by
      unfold HashMap.len
      rw [hentries]
      rfl
    rw [if_neg (by omega)]
    exact HashMap.get?_of_len_zero hlen k'

end Heap

namespace TtlPermissionCache

variable {S P : Type} [Subject S] [Permission P]

def new (ttl : Nat) : TtlPermissionCache := ⟨HashMap.empty, defaultMaxCacheEntries, ttl⟩

def withMaxEntries (c : TtlPermissionCache) (maxEntries : Nat) : TtlPermissionCache := { c with maxEntries }

def key (s : S) (p : P) : CacheKey := (subjectId s, name p)

def get (c : TtlPermissionCache) (now : Nat) (s : S) (p : P) : Option Bool :=
  (c.cache.get? (key s p)).bind (fun entry => if now < entry.expiresAt then some entry.granted else none)

def set (c : TtlPermissionCache) (clock : SetClock) (s : S) (p : P) (granted : Bool) : TtlPermissionCache :=
  let cache := match c.cache.get? (key s p) with
    | some existing => if existing.expiresAt ≤ clock.existing then c.cache.remove (key s p) else c.cache
    | none => c.cache
  let cache := cache.insert (key s p) ⟨granted, clock.insert + c.ttl⟩
  { c with cache := if cache.len > c.maxEntries then evict c.maxEntries clock.evict cache else cache }

def invalidateSubject (c : TtlPermissionCache) (s : S) : TtlPermissionCache :=
  { c with cache := c.cache.retain (fun k _ => decide (k.1 ≠ subjectId s)) }

def invalidateAll (c : TtlPermissionCache) : TtlPermissionCache := { c with cache := HashMap.empty }

/-- A write of the pair's decision stays within the cap, so it evicts nothing. -/
def HasRoom (c : TtlPermissionCache) (s : S) (p : P) : Prop :=
  (c.cache.insert (key s p) ⟨false, 0⟩).len ≤ c.maxEntries

instance (c : TtlPermissionCache) (s : S) (p : P) : Decidable (c.HasRoom s p) := inferInstanceAs (Decidable (_ ≤ _))

/-- A cache of capacity zero that holds nothing. -/
def KeepsNothing (c : TtlPermissionCache) : Prop := c.maxEntries = 0 ∧ c.cache.len = 0

theorem set_cache (c : TtlPermissionCache) (clock : SetClock) (s : S) (p : P) (granted : Bool) :
    (c.set clock s p granted).cache =
      let cache := c.cache.insert (key s p) ⟨granted, clock.insert + c.ttl⟩
      if cache.len > c.maxEntries then evict c.maxEntries clock.evict cache else cache := by
  unfold set
  cases c.cache.get? (key s p) with
  | none => rfl
  | some existing =>
    dsimp only
    split
    · rw [HashMap.insert_remove]
    · rfl

/-- **A write adds its own entry and otherwise only drops entries.** -/
theorem get?_set {c : TtlPermissionCache} {clock : SetClock} {s : S} {p : P} {granted : Bool} {k : CacheKey}
    {e : CacheEntry} (h : (c.set clock s p granted).cache.get? k = some e) :
    (k = key s p ∧ e = ⟨granted, clock.insert + c.ttl⟩) ∨ (k ≠ key s p ∧ c.cache.get? k = some e) := by
  have hins : (c.cache.insert (key s p) ⟨granted, clock.insert + c.ttl⟩).get? k = some e := by
    rw [set_cache] at h
    dsimp only at h
    split at h
    · exact (get?_evict h).1
    · exact h
  rw [HashMap.get?_insert] at hins
  split at hins
  · rename_i hk
    exact Or.inl ⟨hk, (Option.some.inj hins).symm⟩
  · rename_i hk
    exact Or.inr ⟨hk, hins⟩

/-- **With room, a write changes its own entry alone.** -/
theorem get?_set_of_room {c : TtlPermissionCache} {s : S} {p : P} (h : c.HasRoom s p) (clock : SetClock)
    (granted : Bool) (k : CacheKey) :
    (c.set clock s p granted).cache.get? k =
      if k = key s p then some ⟨granted, clock.insert + c.ttl⟩ else c.cache.get? k := by
  have hlen : ¬ (c.cache.insert (key s p) ⟨granted, clock.insert + c.ttl⟩).len > c.maxEntries := by
    have := h
    unfold HasRoom at this
    rw [HashMap.len_insert _ _ _ ⟨granted, clock.insert + c.ttl⟩] at this
    omega
  rw [set_cache]
  dsimp only
  rw [if_neg hlen, HashMap.get?_insert]

theorem get?_set_of_keepsNothing {c : TtlPermissionCache} (h : c.KeepsNothing) (clock : SetClock) (s : S) (p : P)
    (granted : Bool) (k : CacheKey) : (c.set clock s p granted).cache.get? k = none := by
  have hlen : (c.cache.insert (key s p) ⟨granted, clock.insert + c.ttl⟩).len > c.maxEntries := by
    rw [h.1]
    exact Nat.succ_pos _
  rw [set_cache]
  dsimp only
  rw [if_pos hlen, h.1]
  exact get?_evict_single _ _ h.2 _ _ _

theorem get?_invalidateSubject (c : TtlPermissionCache) (s : S) (k : CacheKey) :
    (c.invalidateSubject s).cache.get? k = if k.1 = subjectId s then none else c.cache.get? k := by
  unfold invalidateSubject
  dsimp only
  rw [HashMap.get?_retain_of_key c.cache (fun k : CacheKey => decide (k.1 ≠ subjectId s))]
  by_cases h : k.1 = subjectId s <;> simp [h]

theorem get_eq_some {c : TtlPermissionCache} {now : Nat} {s : S} {p : P} {b : Bool}
    (h : c.get now s p = some b) : ∃ e, c.cache.get? (key s p) = some e ∧ now < e.expiresAt ∧ e.granted = b := by
  obtain ⟨e, he, hb⟩ := Option.bind_eq_some_iff.1 h
  split at hb
  · rename_i hlt
    exact ⟨e, he, hlt, Option.some.inj hb⟩
  · cases hb

theorem get_eq_none_mono {c c' : TtlPermissionCache} {now now' : Nat} {s : S} {p : P}
    (hc : ∀ k, c'.cache.get? k = c.cache.get? k) (hnow : now ≤ now') (h : c.get now s p = none) :
    c'.get now' s p = none := by
  unfold get at *
  rw [hc]
  cases hk : c.cache.get? (key s p) with
  | none => rfl
  | some e =>
    rw [hk] at h
    simp only [Option.bind_some, ite_eq_right_iff, reduceCtorEq, imp_false, Nat.not_lt] at h ⊢
    exact Nat.le_trans h hnow

end TtlPermissionCache

end Rbac
end Kirino
