import Kirino.Lib.Machine
import Kirino.Rbac.Engine
/-!
# Interleaving — decision calls at the grain of their awaits (`rbac/engine.rs`)

Between two awaits a call does one thing: it reads the cache, makes one store query, or writes the cache.  A world is a
store, a cache and the calls made so far, and its events are a new call, a step of one call, a write to the store and
the two invalidations, in any order.  A call that takes its steps with nothing in between is `checkOn`
(`stepTimes_five`), and what a call may have read, for the current rows to entail its answer, is `Call.Consistent`.
-/
namespace Kirino
namespace Rbac

open Lib (Machine HashMap)

/-- What a call does at its next step. -/
inductive Pc where
  | start
  | denied
  | extra
  | roles
  | write (granted : Bool)
  | returned (granted : Bool)
deriving DecidableEq, Repr

structure Call (S P : Type) where
  path : CheckPath
  subject : S
  permission : P
  pc : Pc

inductive Event (S P : Type) where
  | call (path : CheckPath) (subject : S) (permission : P)
  | step (i : Nat) (clock : CheckClock)
  | write (w : StoreWrite S P)
  | invalidateSubject (subject : S)
  | invalidateAll

structure World (A S P : Type) where
  store : A
  cache : TtlPermissionCache
  calls : List (Call S P)

def Call.SameRequest (c c' : Call S P) : Prop :=
  c'.path = c.path ∧ c'.subject = c.subject ∧ c'.permission = c.permission

section
variable {A S P E : Type} [AssignmentStore A S P E] [Subject S] [Permission P] [DecidableEq P]

def Call.key (c : Call S P) : CacheKey := TtlPermissionCache.key c.subject c.permission

def Call.decision (registry : RoleRegistry P) (store : A) (c : Call S P) : Bool :=
  Rbac.decision registry store c.path c.subject c.permission

/-- One step of a call: where it goes on, and the cache it leaves. -/
def Call.next (registry : RoleRegistry P) (store : A) (cache : TtlPermissionCache) (clock : CheckClock) (c : Call S P) :
    Pc × TtlPermissionCache :=
  match c.pc with
  | .start =>
    match cache.get clock.read c.subject c.permission with
    | some granted => (.returned granted, cache)
    | none => (.denied, cache)
  | .denied =>
    match deniedPermissions store c.subject with
    | .ok denied => if c.permission ∈ denied then (.write false, cache) else (.extra, cache)
    | .error _ => (.returned false, cache)
  | .extra =>
    match extraPermissions store c.subject with
    | .ok extra => if c.permission ∈ extra then (.write true, cache) else (.roles, cache)
    | .error _ => (.returned false, cache)
  | .roles =>
    match rolesOf store c.subject with
    | .ok roleNames =>
      (.write (roleNames.any (fun roleName => decide (c.permission ∈ rolePermissions registry c.path roleName))), cache)
    | .error _ => (.write false, cache)
  | .write granted => (.returned granted, cache.set clock.set c.subject c.permission granted)
  | .returned granted => (.returned granted, cache)

def worldStep (registry : RoleRegistry P) (w : World A S P) : Event S P → World A S P
  | .call path s p => { w with calls := w.calls ++ [⟨path, s, p, .start⟩] }
  | .step i clock =>
    match w.calls[i]? with
    | some c =>
      let (pc, cache) := c.next registry w.store w.cache clock
      { w with cache, calls := w.calls.set i { c with pc } }
    | none => w
  | .write write => { w with store := AssignmentStore.write w.store write }
  | .invalidateSubject s => { w with cache := w.cache.invalidateSubject s }
  | .invalidateAll => { w with cache := w.cache.invalidateAll }

/-- The world as a machine; what a call answers is in its state. -/
def worldMachine (registry : RoleRegistry P) : Machine (World A S P) (Event S P) Unit where
  step := worldStep registry
  out _ _ := ()

theorem worldStep_step (registry : RoleRegistry P) {x : World A S P} {i : Nat} {c : Call S P} (clock : CheckClock)
    (hc : x.calls[i]? = some c) :
    worldStep registry x (.step i clock) =
      { x with
        cache := (c.next registry x.store x.cache clock).2
        calls := x.calls.set i { c with pc := (c.next registry x.store x.cache clock).1 } } := by
  unfold worldStep
  dsimp only
  rw [hc]

/-! ## A call without interleaving -/

/-- The call after `n` steps, the cache being written by no one else. -/
def Call.stepTimes (registry : RoleRegistry P) (store : A) (clock : CheckClock) (c : Call S P) :
    Nat → TtlPermissionCache → Pc × TtlPermissionCache
  | 0, cache => (c.pc, cache)
  | n + 1, cache =>
    let (pc, cache) := c.next registry store cache clock
    Call.stepTimes registry store clock { c with pc } n cache

theorem stepTimes_returned (registry : RoleRegistry P) (store : A) (clock : CheckClock) (c : Call S P)
    (granted : Bool) (hpc : c.pc = .returned granted) :
    ∀ (n : Nat) (cache : TtlPermissionCache), c.stepTimes registry store clock n cache = (.returned granted, cache)
  | 0, cache => by rw [Call.stepTimes, hpc]
  | n + 1, cache => by
    have hnext : c.next registry store cache clock = (.returned granted, cache) := by rw [Call.next, hpc]
    rw [Call.stepTimes, hnext]
    exact stepTimes_returned registry store clock _ granted rfl n cache

/-- **Five steps with nothing in between are the call of the engine.** -/
theorem stepTimes_five (path : CheckPath) (engine : RbacEngine A P) (clock : CheckClock) (s : S) (p : P) :
    Call.stepTimes engine.roleRegistry engine.assignmentStore clock ⟨path, s, p, .start⟩ 5 engine.cache =
      (.returned (checkOn path engine clock s p).1, (checkOn path engine clock s p).2) := by
  rw [checkOn_eq]
  cases hget : engine.cache.get clock.read s p with
  | some granted => simp only [Call.stepTimes, Call.next, checkWith, checkCachedDenyExtra, hget]
  | none =>
    cases hd : deniedPermissions engine.assignmentStore s with
    | error e => simp only [Call.stepTimes, Call.next, checkWith, checkCachedDenyExtra, hget, hd]
    | ok denied =>
      by_cases hp : p ∈ denied
      · simp only [Call.stepTimes, Call.next, checkWith, checkCachedDenyExtra, hget, hd, if_pos hp]
      cases hx : extraPermissions engine.assignmentStore s with
      | error e => simp only [Call.stepTimes, Call.next, checkWith, checkCachedDenyExtra, hget, hd, if_neg hp, hx]
      | ok extra =>
        by_cases hpx : p ∈ extra
        · simp only [Call.stepTimes, Call.next, checkWith, checkCachedDenyExtra, hget, hd, if_neg hp, hx, if_pos hpx]
        simp only [Call.stepTimes, Call.next, checkWith, checkCachedDenyExtra, hget, hd, if_neg hp, hx, if_neg hpx]
        cases rolesOf engine.assignmentStore s with
        | error e => rfl
        | ok roleNames =>
          dsimp only
          split
          · rename_i hany
            rw [hany]
          · rename_i hany
            rw [Bool.eq_false_iff.2 hany]

/-! ## What a call has read -/

/-- What the call has read so far is what the rows of its subject say now. -/
def Call.Consistent (registry : RoleRegistry P) (store : A) (c : Call S P) : Prop :=
  match c.pc with
  | .start => True
  | .denied => True
  | .extra => c.permission ∉ (rowsOf store c.subject).denied
  | .roles => c.permission ∉ (rowsOf store c.subject).denied ∧ c.permission ∉ (rowsOf store c.subject).extra
  | .write granted => granted = c.decision registry store
  | .returned granted => granted = c.decision registry store

/-- The entry the call would find is what the rows entail for it. -/
def Call.EntryAgrees (registry : RoleRegistry P) (store : A) (cache : TtlPermissionCache) (c : Call S P) : Prop :=
  ∀ e, cache.cache.get? c.key = some e → e.granted = c.decision registry store

/-- **A step of a call that is consistent, at an entry that agrees, leaves it consistent.** -/
theorem consistent_next {registry : RoleRegistry P} {store : A} {cache : TtlPermissionCache} {clock : CheckClock}
    {c : Call S P} (hfree : ErrorFree store) (hc : c.Consistent registry store)
    (hentry : c.EntryAgrees registry store cache) :
    Call.Consistent registry store { c with pc := (c.next registry store cache clock).1 } := by
  obtain ⟨path, s, p, pc⟩ := c
  obtain ⟨hr, hx, hd⟩ := hfree s
  unfold Call.Consistent at hc ⊢
  unfold Call.next
  cases pc with
  | start =>
    dsimp only
    cases hget : cache.get clock.read s p with
    | none => trivial
    | some granted =>
      obtain ⟨e, he, -, rfl⟩ := TtlPermissionCache.get_eq_some hget
      exact hentry e he
  | denied =>
    dsimp only
    rw [hd]
    dsimp only
    by_cases hp : p ∈ (rowsOf store s).denied
    · rw [if_pos hp]
      exact (decide_eq_false (SubjectRows.not_grants_of_denied _ registry path hp)).symm
    · rw [if_neg hp]
      exact hp
  | extra =>
    dsimp only at hc ⊢
    rw [hx]
    dsimp only
    by_cases hpx : p ∈ (rowsOf store s).extra
    · rw [if_pos hpx]
      exact (decide_eq_true ⟨hc, Or.inl hpx⟩).symm
    · rw [if_neg hpx]
      exact ⟨hc, hpx⟩
  | roles =>
    dsimp only at hc ⊢
    rw [hr]
    dsimp only
    show _ = Rbac.decision registry store path s p
    rw [Bool.eq_iff_iff, List.any_eq_true]
    simp only [Rbac.decision, decide_eq_true_eq]
    exact ⟨fun h => ⟨hc.1, Or.inr h⟩, fun h => h.2.resolve_left hc.2⟩
  | write granted => exact hc
  | returned granted => exact hc

/-- **A step leaves the cache as it was, or is the call's write of the answer it then returns.** -/
theorem next_cache (registry : RoleRegistry P) (store : A) (cache : TtlPermissionCache) (clock : CheckClock)
    (c : Call S P) :
    (c.next registry store cache clock).2 = cache ∨ ∃ granted, c.pc = .write granted ∧
      c.next registry store cache clock = (.returned granted, cache.set clock.set c.subject c.permission granted) := by
  obtain ⟨path, s, p, pc⟩ := c
  unfold Call.next
  cases pc with
  | start =>
    dsimp only
    split <;> exact Or.inl rfl
  | denied =>
    dsimp only
    split
    · split <;> exact Or.inl rfl
    · exact Or.inl rfl
  | extra =>
    dsimp only
    split
    · split <;> exact Or.inl rfl
    · exact Or.inl rfl
  | roles =>
    dsimp only
    split <;> exact Or.inl rfl
  | write granted => exact Or.inr ⟨granted, rfl, rfl⟩
  | returned granted => exact Or.inl rfl

end

section Request
variable {A S P E : Type} [AssignmentStore A S P E] [DecidableEq P] {registry : RoleRegistry P} {store : A}
  {c c' : Call S P}

theorem Call.SameRequest.decision (h : c.SameRequest c') : c'.decision registry store = c.decision registry store := by
  unfold Call.decision
  rw [h.1, h.2.1, h.2.2]

variable [Subject S] [Permission P]

theorem Call.SameRequest.entryAgrees {cache : TtlPermissionCache} (h : c.SameRequest c')
    (ha : c'.EntryAgrees registry store cache) : c.EntryAgrees registry store cache := by
  have hkey : c'.key = c.key := by
    unfold Call.key
    rw [h.2.1, h.2.2]
  unfold Call.EntryAgrees at *
  rw [hkey, h.decision] at ha
  exact ha

end Request

end Rbac
end Kirino
