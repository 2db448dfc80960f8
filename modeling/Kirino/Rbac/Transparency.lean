import Kirino.Lib.Machine
import Kirino.Rbac.Engine
import Kirino.Rbac.Store.Memory
/-!
# Transparency — what the cache hides (`rbac/engine.rs`, `rbac/cache.rs`)

A run of calls on one engine from a cold cache, over a store nobody writes.  An entry is the decision of the latest
call of its key (`CacheTracks`), and the key does not name the decision path: so the run answers as an engine without
a cache exactly when every call that finds an entry is entitled to what the latest call of its key was.
-/
namespace Kirino
namespace Rbac

open Lib (Machine HashMap)

structure CheckRequest (S P : Type) where
  path : CheckPath
  clock : CheckClock
  subject : S
  permission : P

/-- The cache of the run and the calls it has answered, the latest first; no call reads the latter. -/
structure CheckState (S P : Type) where
  cache : TtlPermissionCache
  past : List (CheckRequest S P)

section
variable {S P : Type} [Subject S] [Permission P]

def CheckRequest.key (r : CheckRequest S P) : CacheKey := TtlPermissionCache.key r.subject r.permission

def CheckState.latest (st : CheckState S P) (k : CacheKey) : Option (CheckRequest S P) :=
  st.past.find? (fun r => decide (r.key = k))

theorem CheckState.latest_cons (st : CheckState S P) (cache : TtlPermissionCache) (r : CheckRequest S P)
    (k : CacheKey) : CheckState.latest ⟨cache, r :: st.past⟩ k = if r.key = k then some r else st.latest k := by
  unfold latest
  rw [List.find?_cons]
  by_cases h : r.key = k <;> simp [h]

end

section
variable {A S P E : Type} [AssignmentStore A S P E] [Subject S] [Permission P] [DecidableEq P]

def CheckRequest.run (engine : RbacEngine A P) (r : CheckRequest S P) : Bool × TtlPermissionCache :=
  checkOn r.path engine r.clock r.subject r.permission

def CheckRequest.decision (engine : RbacEngine A P) (r : CheckRequest S P) : Bool :=
  Rbac.decision engine.roleRegistry engine.assignmentStore r.path r.subject r.permission

def checkMachine (engine : RbacEngine A P) : Machine (CheckState S P) (CheckRequest S P) Bool where
  step st r := ⟨(r.run { engine with cache := st.cache }).2, r :: st.past⟩
  out st r := (r.run { engine with cache := st.cache }).1

def coldState (engine : RbacEngine A P) : CheckState S P := ⟨engine.cache.invalidateAll, []⟩

/-- The answer of a fresh engine: the same call on an empty cache. -/
def freshAnswer (engine : RbacEngine A P) (r : CheckRequest S P) : Bool :=
  (r.run { engine with cache := engine.cache.invalidateAll }).1

/-- A call that finds an entry is decided as the latest call of its key is. -/
def HitAgrees (engine : RbacEngine A P) (st : CheckState S P) (r : CheckRequest S P) : Prop :=
  st.cache.get r.clock.read r.subject r.permission ≠ none →
    ∀ r' ∈ st.latest r.key, r'.decision engine = r.decision engine

/-- Every entry is the decision of the latest call of its key. -/
def CacheTracks (engine : RbacEngine A P) (st : CheckState S P) : Prop :=
  ∀ k e, st.cache.cache.get? k = some e → ∃ r ∈ st.latest k, e.granted = r.decision engine

theorem cacheTracks_cold (engine : RbacEngine A P) : CacheTracks engine (coldState engine : CheckState S P) := by
  intro k e h
  cases h

section Step
variable {engine : RbacEngine A P}

theorem step_of_miss (hfree : ErrorFree engine.assignmentStore) {st : CheckState S P} {r : CheckRequest S P}
    (hmiss : st.cache.get r.clock.read r.subject r.permission = none) :
    (checkMachine engine).out st r = r.decision engine ∧
      (checkMachine engine).step st r =
        ⟨st.cache.set r.clock.set r.subject r.permission (r.decision engine), r :: st.past⟩ := by
  have hfree' : failedQuery { engine with cache := st.cache } r.clock.read r.subject r.permission = none :=
    failedQuery_of_errorFree { engine with cache := st.cache } hfree _ _ _
  have h : r.run { engine with cache := st.cache } =
      (r.decision engine, st.cache.set r.clock.set r.subject r.permission (r.decision engine)) :=
    checkOn_of_miss r.path hmiss hfree'
  constructor
  · show (r.run _).1 = _
    rw [h]
  · show CheckState.mk (r.run _).2 _ = _
    rw [h]

theorem freshAnswer_eq (hfree : ErrorFree engine.assignmentStore) (r : CheckRequest S P) :
    freshAnswer engine r = r.decision engine := by
  have hmiss : (coldState engine : CheckState S P).cache.get r.clock.read r.subject r.permission = none := rfl
  exact (step_of_miss hfree hmiss).1

theorem step_of_hit {st : CheckState S P} {r : CheckRequest S P} {b : Bool}
    (hhit : st.cache.get r.clock.read r.subject r.permission = some b) :
    (checkMachine engine).out st r = b ∧ (checkMachine engine).step st r = ⟨st.cache, r :: st.past⟩ := by
  have h : r.run { engine with cache := st.cache } = (b, st.cache) := checkOn_of_hit r.path hhit
  constructor
  · show (r.run _).1 = _
    rw [h]
  · show CheckState.mk (r.run _).2 _ = _
    rw [h]

theorem latest_of_hit {st : CheckState S P} {r : CheckRequest S P} {b : Bool} (htracks : CacheTracks engine st)
    (hhit : st.cache.get r.clock.read r.subject r.permission = some b) :
    ∃ r' ∈ st.latest r.key, b = r'.decision engine := by
  obtain ⟨e, he, -, rfl⟩ := TtlPermissionCache.get_eq_some hhit
  exact htracks _ e he

theorem out_eq_freshAnswer_iff (hfree : ErrorFree engine.assignmentStore) {st : CheckState S P} {r : CheckRequest S P}
    (htracks : CacheTracks engine st) :
    (checkMachine engine).out st r = freshAnswer engine r ↔ HitAgrees engine st r := by
  rw [freshAnswer_eq hfree]
  cases hget : st.cache.get r.clock.read r.subject r.permission with
  | none =>
    rw [(step_of_miss hfree hget).1]
    exact iff_of_true rfl (fun hne => absurd hget hne)
  | some b =>
    obtain ⟨r', hr', hb⟩ := latest_of_hit htracks hget
    rw [(step_of_hit hget).1, hb]
    constructor
    · intro h _ r'' hr''
      rw [Option.mem_unique hr'' hr', h]
    · intro h
      exact h (by rw [hget]; exact Option.some_ne_none b) r' hr'

theorem cacheTracks_step (hfree : ErrorFree engine.assignmentStore) {st : CheckState S P} {r : CheckRequest S P}
    (htracks : CacheTracks engine st) (hagrees : HitAgrees engine st r) :
    CacheTracks engine ((checkMachine engine).step st r) := by
  intro k e he
  cases hget : st.cache.get r.clock.read r.subject r.permission with
  | none =>
    rw [(step_of_miss hfree hget).2] at he ⊢
    rw [CheckState.latest_cons]
    rcases TtlPermissionCache.get?_set he with ⟨rfl, rfl⟩ | ⟨hk, hold⟩
    · exact ⟨r, if_pos rfl, rfl⟩
    · have hne : r.key ≠ k := fun h => hk h.symm
      rw [if_neg hne]
      exact htracks k e hold
  | some b =>
    rw [(step_of_hit hget).2] at he ⊢
    rw [CheckState.latest_cons]
    obtain ⟨r', hr', hgranted⟩ := htracks k e he
    by_cases hk : r.key = k
    · subst hk
      rw [if_pos rfl]
      have hne : st.cache.get r.clock.read r.subject r.permission ≠ none := by rw [hget]; exact Option.some_ne_none b
      exact ⟨r, rfl, hgranted.trans (hagrees hne r' hr')⟩
    · rw [if_neg hk]
      exact ⟨r', hr', hgranted⟩

end Step

/-- **Every call answers as on a fresh engine exactly when every call that finds an entry is decided as the latest
call of its key.** -/
theorem outs_eq_freshAnswer_iff (engine : RbacEngine A P) (hfree : ErrorFree engine.assignmentStore)
    (rs : List (CheckRequest S P)) :
    (checkMachine engine).outs (coldState engine) rs = rs.map (freshAnswer engine) ↔
      (checkMachine engine).Along (HitAgrees engine) (coldState engine) rs :=
  (checkMachine engine).outs_eq_map_iff (HitAgrees engine) (fun _ _ => True) (CacheTracks engine) (freshAnswer engine)
    (fun _ _ h _ => out_eq_freshAnswer_iff hfree h) (fun _ _ => cacheTracks_step hfree) _ rs (cacheTracks_cold engine)
    ((checkMachine engine).along_of_forall _ _ rs (fun _ _ _ => trivial))

end

def adminEngine : RbacEngine (InMemoryAssignmentStore String TestPerm) TestPerm :=
  ⟨testRegistry, adminStore, TtlPermissionCache.new (fromSecs 60)⟩

def readRequest (path : CheckPath) (now : Nat) : CheckRequest String TestPerm :=
  ⟨path, clockAt now, "user", .read⟩

theorem outs_eq_freshAnswer_flat_twice :
    (checkMachine adminEngine).outs (coldState adminEngine) [readRequest .flat 0, readRequest .flat 1] =
      [readRequest .flat 0, readRequest .flat 1].map (freshAnswer adminEngine) := by
  refine (outs_eq_freshAnswer_iff adminEngine (InMemoryAssignmentStore.errorFree _) _).2 ⟨?_, ?_, trivial⟩
  · exact fun hhit => absurd rfl hhit
  · rintro - r' hr'
    obtain rfl : readRequest .flat 0 = r' := Option.some.inj hr'
    rfl

/-- No entry of the call's key has expired. -/
def NoExpiry {S P : Type} [Subject S] [Permission P] (st : CheckState S P) (r : CheckRequest S P) : Prop :=
  ∀ e ∈ st.cache.cache.get? r.key, r.clock.read < e.expiresAt

theorem read_mem_resolveRoleChain_admin : TestPerm.read ∈ resolveRoleChain "admin" testRegistry := by
  simp [resolveRoleChain, resolveLoop, testRegistry, StaticRoleRegistry.toRoleRegistry, StaticRoleRegistry.register,
    StaticRoleRegistry.registerHierarchical, StaticRoleRegistry.new, HashMap.get?_insert, HashMap.get?_remove]

/-- An administrator inherits `read`; a flat check of it makes the hierarchical check deny it. -/
theorem flat_check_shadows_hierarchical :
    ErrorFree adminEngine.assignmentStore ∧
      (checkMachine adminEngine).Along NoExpiry (coldState adminEngine)
        [readRequest .flat 0, readRequest .hierarchical 1] ∧
      (checkMachine adminEngine).outs (coldState adminEngine)
        [readRequest .flat 0, readRequest .hierarchical 1] = [false, false] ∧
      [readRequest .flat 0, readRequest .hierarchical 1].map (freshAnswer adminEngine) = [false, true] := by
  have hfree : ErrorFree adminEngine.assignmentStore := InMemoryAssignmentStore.errorFree _
  refine ⟨hfree, ⟨?_, ?_, trivial⟩, by decide, ?_⟩
  · exact fun e he => by cases he
  · intro e he
    obtain rfl : ⟨false, fromSecs 60⟩ = e := Option.some.inj he
    decide
  · have hflat : (readRequest .flat 0).decision adminEngine = false := by decide
    have hhier : (readRequest .hierarchical 1).decision adminEngine = true :=
      decide_eq_true ⟨by decide, Or.inr ⟨"admin", by decide, read_mem_resolveRoleChain_admin⟩⟩
    rw [List.map_cons, List.map_cons, List.map_nil, freshAnswer_eq hfree, freshAnswer_eq hfree, hflat, hhier]

/-! ## Runs that cannot disagree -/

section
variable {A S P E : Type} [AssignmentStore A S P E] [Subject S] [Permission P] [DecidableEq P]

theorem along_hitAgrees (engine : RbacEngine A P) (among : CheckRequest S P → Prop)
    (hagree : ∀ r r', among r → among r' → r.key = r'.key → r.decision engine = r'.decision engine) :
    ∀ (st : CheckState S P) (rs : List (CheckRequest S P)), (∀ r ∈ st.past, among r) → (∀ r ∈ rs, among r) →
      (checkMachine engine).Along (HitAgrees engine) st rs
  | _, [], _, _ => trivial
  | st, r :: rs, hpast, hrs => by
    have hr : among r := hrs r List.mem_cons_self
    refine ⟨fun _ r' hr' => ?_, ?_⟩
    · have hkey : r'.key = r.key := by simpa using List.find?_some hr'
      exact hagree r' r (hpast r' (List.mem_of_find?_eq_some hr')) hr hkey
    · refine along_hitAgrees engine among hagree _ rs (fun x hx => ?_)
        (fun x hx => hrs x (List.mem_cons_of_mem r hx))
      rcases List.mem_cons.1 hx with rfl | hx
      · exact hr
      · exact hpast x hx

/-- **A run on one decision path hides nothing**, when the ids name the subjects and the names the permissions. -/
theorem outs_eq_freshAnswer_of_path (engine : RbacEngine A P) (hfree : ErrorFree engine.assignmentStore)
    (hid : Function.Injective (subjectId : S → String)) (hname : Function.Injective (name : P → String))
    (path : CheckPath) (rs : List (CheckRequest S P)) (hpath : ∀ r ∈ rs, r.path = path) :
    (checkMachine engine).outs (coldState engine) rs = rs.map (freshAnswer engine) := by
  refine (checkMachine engine).outs_eq_map (HitAgrees engine) (CacheTracks engine) (freshAnswer engine)
    (fun st r htracks hagrees => ⟨cacheTracks_step hfree htracks hagrees, (out_eq_freshAnswer_iff hfree htracks).2 hagrees⟩)
    _ rs (cacheTracks_cold engine) (along_hitAgrees engine (fun r => r.path = path) ?_ _ rs (fun r hr => by cases hr) hpath)
  rintro ⟨_, c, s, p⟩ ⟨_, c', s', p'⟩ rfl rfl hkey
  have hs : s = s' := hid (congrArg Prod.fst hkey)
  have hp : p = p' := hname (congrArg Prod.snd hkey)
  subst hs hp
  rfl

end

end Rbac
end Kirino
