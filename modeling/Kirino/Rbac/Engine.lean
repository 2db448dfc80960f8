import Kirino.Rbac.Cache
import Kirino.Rbac.Hierarchy
/-!
# Engine — the decision functions of the engine (`rbac/engine.rs`)

`check` and `checkHierarchical` read the cache, then the denied, extra and role queries in that order, and write the
cache with the decision; `effectivePermissions` and its hierarchical variant list what a subject can exercise.  Both
decision functions are `checkWith` at their own test of a role, and `checkOn` names them by path.  The four lemmas
`checkOn_of_hit`, `checkOn_of_failed`, `checkOn_of_failed_roles` and `checkOn_of_miss` say everything a call does;
later modules do not unfold it.
-/
namespace Kirino
namespace Rbac

structure RbacEngine (A P : Type) where
  roleRegistry : RoleRegistry P
  assignmentStore : A
  cache : TtlPermissionCache

/-- The instants a call reads: one for the cache read, three for the cache write. -/
structure CheckClock where
  read : Nat
  set : SetClock

/-- All the instants of a call at once. -/
def clockAt (now : Nat) : CheckClock := ⟨now, now, now, now⟩

section
variable {A S P E : Type} [AssignmentStore A S P E] [Subject S] [Permission P] [DecidableEq P]

def checkCachedDenyExtra (engine : RbacEngine A P) (clock : CheckClock) (s : S) (p : P) :
    Except E (Option Bool) × TtlPermissionCache :=
  match engine.cache.get clock.read s p with
  | some granted => (.ok (some granted), engine.cache)
  | none =>
    match deniedPermissions engine.assignmentStore s with
    | .ok denied =>
      if p ∈ denied then (.ok (some false), engine.cache.set clock.set s p false)
      else
        match extraPermissions engine.assignmentStore s with
        | .ok extra =>
          if p ∈ extra then (.ok (some true), engine.cache.set clock.set s p true)
          else (.ok none, engine.cache)
        | .error e => (.error e, engine.cache)
    | .error e => (.error e, engine.cache)

/-- The common body of the two decision functions, which differ in how a held role is tested. -/
def checkWith (roleGrants : String → Bool) (engine : RbacEngine A P) (clock : CheckClock) (s : S) (p : P) :
    Bool × TtlPermissionCache :=
  match checkCachedDenyExtra engine clock s p with
  | (.ok (some result), cache) => (result, cache)
  | (.error _, cache) => (false, cache)
  | (.ok none, cache) =>
    match rolesOf engine.assignmentStore s with
    | .ok roleNames =>
      if roleNames.any roleGrants then (true, cache.set clock.set s p true)
      else (false, cache.set clock.set s p false)
    -- the error is logged, and control falls through to the write of `false`
    | .error _ => (false, cache.set clock.set s p false)

def check (engine : RbacEngine A P) (clock : CheckClock) (s : S) (p : P) : Bool × TtlPermissionCache :=
  checkWith (fun roleName => match engine.roleRegistry.getRolePermissions roleName with
    | some perms => decide (p ∈ perms)
    | none => false) engine clock s p

def checkHierarchical (engine : RbacEngine A P) (clock : CheckClock) (s : S) (p : P) : Bool × TtlPermissionCache :=
  checkWith (fun roleName => decide (p ∈ resolveRoleChain roleName engine.roleRegistry)) engine clock s p

def checkOn (path : CheckPath) (engine : RbacEngine A P) (clock : CheckClock) (s : S) (p : P) :
    Bool × TtlPermissionCache :=
  match path with
  | .flat => check engine clock s p
  | .hierarchical => checkHierarchical engine clock s p

/-- The common body of the two listings. -/
def effectiveWith (permsOf : String → Finset P) (engine : RbacEngine A P) (s : S) : Except E (Finset P) := do
  let roleNames ← rolesOf engine.assignmentStore s
  let perms := roleNames.foldl (fun perms roleName => perms ∪ permsOf roleName) ∅
  let extra ← extraPermissions engine.assignmentStore s
  let perms := perms ∪ extra
  let denied ← deniedPermissions engine.assignmentStore s
  return perms.filter (fun p => p ∉ denied)

def effectivePermissions (engine : RbacEngine A P) (s : S) : Except E (Finset P) :=
  effectiveWith (fun roleName => match engine.roleRegistry.getRolePermissions roleName with
    | some rolePerms => rolePerms
    | none => ∅) engine s

def effectivePermissionsHierarchical (engine : RbacEngine A P) (s : S) : Except E (Finset P) :=
  effectiveWith (fun roleName => resolveRoleChain roleName engine.roleRegistry) engine s

def effectiveOn (path : CheckPath) (engine : RbacEngine A P) (s : S) : Except E (Finset P) :=
  match path with
  | .flat => effectivePermissions engine s
  | .hierarchical => effectivePermissionsHierarchical engine s

/-! ## What a call does -/

theorem checkOn_eq (path : CheckPath) (engine : RbacEngine A P) (clock : CheckClock) (s : S) (p : P) :
    checkOn path engine clock s p =
      checkWith (fun roleName => decide (p ∈ rolePermissions engine.roleRegistry path roleName)) engine clock s p := by
  cases path with
  | flat =>
    have hg : (fun roleName => match engine.roleRegistry.getRolePermissions roleName with
        | some perms => decide (p ∈ perms)
        | none => false) = fun roleName => decide (p ∈ rolePermissions engine.roleRegistry .flat roleName) := by
      funext roleName
      show _ = decide (p ∈ (engine.roleRegistry.getRolePermissions roleName).getD ∅)
      cases engine.roleRegistry.getRolePermissions roleName <;> simp
    unfold checkOn check
    dsimp only
    rw [hg]
  | hierarchical => rfl

inductive StoreQuery where
  | deniedPermissions
  | extraPermissions
  | rolesOf
deriving DecidableEq, Repr

/-- The query a call makes that returns an error, if it makes one that does: no query is made on a hit, and none after
a deny or an extra grant decided. -/
def failedQuery (engine : RbacEngine A P) (now : Nat) (s : S) (p : P) : Option StoreQuery :=
  match engine.cache.get now s p with
  | some _ => none
  | none =>
    match deniedPermissions engine.assignmentStore s with
    | .error _ => some .deniedPermissions
    | .ok denied =>
      if p ∈ denied then none
      else
        match extraPermissions engine.assignmentStore s with
        | .error _ => some .extraPermissions
        | .ok extra =>
          if p ∈ extra then none
          else
            match rolesOf engine.assignmentStore s with
            | .error _ => some .rolesOf
            | .ok _ => none

/-- The decision the store's content entails. -/
def decision (registry : RoleRegistry P) (store : A) (path : CheckPath) (s : S) (p : P) : Bool :=
  decide ((rowsOf store s).Grants registry path p)

theorem checkOn_of_hit (path : CheckPath) {engine : RbacEngine A P} {clock : CheckClock} {s : S} {p : P} {b : Bool}
    (h : engine.cache.get clock.read s p = some b) : checkOn path engine clock s p = (b, engine.cache) := by
  rw [checkOn_eq, checkWith, checkCachedDenyExtra, h]

theorem failedQuery_eq_none_of_hit {engine : RbacEngine A P} {now : Nat} {s : S} {p : P} {b : Bool}
    (h : engine.cache.get now s p = some b) : failedQuery engine now s p = none := by
  rw [failedQuery, h]

theorem miss_of_failedQuery {engine : RbacEngine A P} {now : Nat} {s : S} {p : P} {q : StoreQuery}
    (h : failedQuery engine now s p = some q) : engine.cache.get now s p = none := by
  cases hc : engine.cache.get now s p with
  | none => rfl
  | some b => rw [failedQuery_eq_none_of_hit hc] at h; cases h

/-- **A failed deny or extra query denies and leaves the cache alone.** -/
theorem checkOn_of_failed (path : CheckPath) {engine : RbacEngine A P} {clock : CheckClock} {s : S} {p : P}
    {q : StoreQuery} (h : failedQuery engine clock.read s p = some q) (hq : q ≠ .rolesOf) :
    checkOn path engine clock s p = (false, engine.cache) := by
  have hmiss := miss_of_failedQuery h
  rw [checkOn_eq, checkWith, checkCachedDenyExtra, hmiss]
  rw [failedQuery, hmiss] at h
  dsimp only at h ⊢
  cases hd : deniedPermissions engine.assignmentStore s with
  | error e => rfl
  | ok denied =>
    rw [hd] at h
    dsimp only at h ⊢
    split at h
    · cases h
    rename_i hp
    rw [if_neg hp]
    cases hx : extraPermissions engine.assignmentStore s with
    | error e => rfl
    | ok extra =>
      rw [hx] at h
      dsimp only at h
      split at h
      · cases h
      split at h
      · exact absurd (Option.some.inj h).symm hq
      · cases h

/-- **A failed role query denies and writes the denial into the cache.** -/
theorem checkOn_of_failed_roles (path : CheckPath) {engine : RbacEngine A P} {clock : CheckClock} {s : S} {p : P}
    (h : failedQuery engine clock.read s p = some .rolesOf) :
    checkOn path engine clock s p = (false, engine.cache.set clock.set s p false) := by
  have hmiss := miss_of_failedQuery h
  rw [checkOn_eq, checkWith, checkCachedDenyExtra, hmiss]
  rw [failedQuery, hmiss] at h
  dsimp only at h ⊢
  cases hd : deniedPermissions engine.assignmentStore s with
  | error e => rw [hd] at h; cases h
  | ok denied =>
    rw [hd] at h
    dsimp only at h ⊢
    split at h
    · cases h
    rename_i hp
    rw [if_neg hp]
    cases hx : extraPermissions engine.assignmentStore s with
    | error e => rw [hx] at h; cases h
    | ok extra =>
      rw [hx] at h
      dsimp only at h ⊢
      split at h
      · cases h
      rename_i hpx
      rw [if_neg hpx]
      cases hr : rolesOf engine.assignmentStore s with
      | error e => rfl
      | ok roleNames => rw [hr] at h; cases h

/-- **A miss on which no query fails decides from the store's content and writes the decision into the cache.** -/
theorem checkOn_of_miss (path : CheckPath) {engine : RbacEngine A P} {clock : CheckClock} {s : S} {p : P}
    (hmiss : engine.cache.get clock.read s p = none) (h : failedQuery engine clock.read s p = none) :
    checkOn path engine clock s p =
      (decision engine.roleRegistry engine.assignmentStore path s p,
        engine.cache.set clock.set s p (decision engine.roleRegistry engine.assignmentStore path s p)) := by
  rw [checkOn_eq, checkWith, checkCachedDenyExtra, hmiss]
  rw [failedQuery, hmiss] at h
  unfold decision SubjectRows.Grants rowsOf
  dsimp only at h ⊢
  cases hd : deniedPermissions engine.assignmentStore s with
  | error e => rw [hd] at h; cases h
  | ok denied =>
    rw [hd] at h
    dsimp only at h ⊢
    by_cases hp : p ∈ denied
    · simp [hp, Except.toOption]
    rw [if_neg hp] at h ⊢
    cases hx : extraPermissions engine.assignmentStore s with
    | error e => rw [hx] at h; cases h
    | ok extra =>
      rw [hx] at h
      dsimp only at h ⊢
      by_cases hpx : p ∈ extra
      · simp [hp, hpx, Except.toOption]
      rw [if_neg hpx] at h ⊢
      cases hr : rolesOf engine.assignmentStore s with
      | error e => rw [hr] at h; cases h
      | ok roleNames =>
        dsimp only
        by_cases hany : ∃ roleName ∈ roleNames, p ∈ rolePermissions engine.roleRegistry path roleName
        · simp [hp, hpx, hany, Except.toOption]
        · simp [hp, hpx, hany, Except.toOption]

theorem failedQuery_of_errorFree (engine : RbacEngine A P) (h : ErrorFree engine.assignmentStore) (now : Nat) (s : S)
    (p : P) : failedQuery engine now s p = none := by
  obtain ⟨hr, hx, hd⟩ := h s
  unfold failedQuery
  rw [hr, hx, hd]
  cases engine.cache.get now s p with
  | some b => rfl
  | none =>
    dsimp only
    split
    · rfl
    · split <;> rfl

end

/-! ## The listings -/

section
variable {A S P E : Type} [AssignmentStore A S P E] [DecidableEq P]

theorem mem_foldl_union (permsOf : String → Finset P) (p : P) : ∀ (roleNames : List String) (acc : Finset P),
    p ∈ roleNames.foldl (fun perms roleName => perms ∪ permsOf roleName) acc ↔
      p ∈ acc ∨ ∃ roleName ∈ roleNames, p ∈ permsOf roleName
  | [], acc => by simp
  | r :: rs, acc => by
    rw [List.foldl_cons, mem_foldl_union permsOf p rs, Finset.mem_union]
    simp only [List.mem_cons, exists_eq_or_imp, or_assoc]

theorem effectiveOn_eq (path : CheckPath) (engine : RbacEngine A P) (s : S) :
    effectiveOn path engine s = effectiveWith (rolePermissions engine.roleRegistry path) engine s := by
  cases path with
  | flat =>
    have hg : (fun roleName => match engine.roleRegistry.getRolePermissions roleName with
        | some rolePerms => rolePerms
        | none => ∅) = rolePermissions engine.roleRegistry .flat := by
      funext roleName
      show _ = (engine.roleRegistry.getRolePermissions roleName).getD ∅
      cases engine.roleRegistry.getRolePermissions roleName <;> rfl
    unfold effectiveOn effectivePermissions
    dsimp only
    rw [hg]
  | hierarchical => rfl

/-- **A listing of an error-free store succeeds with exactly the permissions the content grants.** -/
theorem effectiveOn_of_errorFree (path : CheckPath) {engine : RbacEngine A P} (h : ErrorFree engine.assignmentStore)
    (s : S) : ∃ perms, effectiveOn path engine s = .ok perms ∧
      ∀ p, p ∈ perms ↔ (rowsOf engine.assignmentStore s).Grants engine.roleRegistry path p := by
  obtain ⟨hr, hx, hd⟩ := h s
  rw [effectiveOn_eq, effectiveWith, hr, hx, hd]
  refine ⟨_, rfl, fun p => ?_⟩
  rw [Finset.mem_filter, Finset.mem_union, mem_foldl_union]
  unfold SubjectRows.Grants
  simp only [Finset.notMem_empty, false_or]
  constructor
  · rintro ⟨h1 | h1, h2⟩
    · exact ⟨h2, Or.inr h1⟩
    · exact ⟨h2, Or.inl h1⟩
  · rintro ⟨h2, h1 | h1⟩
    · exact ⟨Or.inr h1, h2⟩
    · exact ⟨Or.inl h1, h2⟩

/-- **Deny wins.** -/
theorem decision_of_denied {engine : RbacEngine A P} {s : S} (hfree : ErrorFree engine.assignmentStore)
    (path : CheckPath) {denied : Finset P} {p : P}
    (hdenied : deniedPermissions engine.assignmentStore s = .ok denied) (hp : p ∈ denied) :
    decision engine.roleRegistry engine.assignmentStore path s p = false := by
  obtain rfl : denied = (rowsOf engine.assignmentStore s).denied := Except.ok.inj (hdenied.symm.trans (hfree s).2.2)
  exact decide_eq_false (SubjectRows.not_grants_of_denied _ _ path hp)

end

end Rbac
end Kirino
