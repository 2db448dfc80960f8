import Mathlib.Data.Prod.Lex
import Mathlib.Order.OrderDual
import Kirino.Lib.Fallible
import Kirino.Lib.Least
import Kirino.Rbac.Scope
/-!
# ScopedResolution — what the scoped resolver decides (`rbac/scope.rs`)

`GrantsPermission` says when the resolver grants, over the rows of a store that answers.  The source of a scoped grant
is read off the least of the applicable grants' preferences (`leastOf_bestCandidate`), so the decision and its source
depend on the rows and the groups as sets.  A store that fails a query the resolver makes (`Asks`) fails the resolver.
The in-memory store answers, and its runs of grants and of denies only give and only take (`granted_run`).
-/
namespace Kirino
namespace Rbac

open Lib (HashMap LeastOf bind_eq_error_iff)

/-! ## What the rows say -/

/-- The content of a store that answers every query. -/
structure ScopedRows (U P : Type) where
  userGrants : U → List (ScopedGrant U P)
  groupGrants : U → List (ScopedGrant U P)
  denied : U → Finset P

section Spec
variable {U P : Type} [DecidableEq U] [UuidDebug U] [PermissionTree P]
variable (rows : ScopedRows U P) (roles : RoleRegistry P) (ctx : PermissionContext U) (permission : P)

/-- Some entry of the user's deny set matches the request. -/
def DenyMatches : Prop := ∃ d ∈ rows.denied ctx.userId, grantMatches d permission = true

/-- Some default of the context's system role matches the request. -/
def DefaultMatches : Prop :=
  ∃ perms, roles.getRolePermissions ctx.systemRole.asStr = some perms ∧ ∃ p ∈ perms, grantMatches p permission = true

/-- The grant is attached to the user or to a group of the context, applies to the context and matches the request. -/
def Applicable (candidate : Candidate U P) : Prop :=
  (candidate.1 = .user ∧ candidate.2 ∈ rows.userGrants ctx.userId ∨
    candidate.1 = .group ∧ ∃ group ∈ ctx.groupIds, candidate.2 ∈ rows.groupGrants group) ∧
  candidate.2.scope.appliesTo ctx = true ∧ grantMatches candidate.2.permission permission = true

/-- **When the resolver grants.** -/
def GrantsPermission : Prop :=
  ctx.isSessionStale = false ∧
    (ctx.systemRole = .admin ∨
      ¬ DenyMatches rows ctx permission ∧
        (DefaultMatches roles ctx permission ∨ ∃ candidate, Applicable rows ctx permission candidate))

/-- The candidates in the order they are collected. -/
def candidatesOf : List (Candidate U P) :=
  (rows.userGrants ctx.userId).map (Prod.mk .user) ++
    ctx.groupIds.flatMap (fun group => (rows.groupGrants group).map (Prod.mk .group))

/-- The decision over the rows. -/
def decisionOn : PermissionDecision :=
  if ctx.isSessionStale then .denied "session version is stale — re-authentication required" none
  else if ctx.systemRole = .admin then .granted "system administrator" .adminBypass
  else
    match decidedBefore roles ctx permission (rows.denied ctx.userId) with
    | some decision => decision
    | none => scopedDecision (bestCandidate ctx permission (candidatesOf rows ctx))

end Spec

section Matches
variable {U P : Type} [PermissionTree P]

theorem anyMatches_iff (perms : Finset P) (permission : P) :
    anyMatches perms permission = true ↔ ∃ p ∈ perms, grantMatches p permission = true := decide_eq_true_iff

theorem roleDefaultMatches_iff (roles : RoleRegistry P) (ctx : PermissionContext U) (permission : P) :
    roleDefaultMatches roles ctx permission = true ↔ DefaultMatches roles ctx permission := by
  unfold roleDefaultMatches DefaultMatches
  cases roles.getRolePermissions ctx.systemRole.asStr with
  | none => simp
  | some perms => simp [anyMatches_iff]

end Matches

/-- The store answers every query, with these rows. -/
structure Answers {A U P E : Type} [ScopedGrantStore A U P E] (store : A) (rows : ScopedRows U P) : Prop where
  userGrants : ∀ u, ScopedGrantStore.userGrants store u = .ok (rows.userGrants u)
  groupGrants : ∀ g, ScopedGrantStore.groupGrants store g = .ok (rows.groupGrants g)
  denied : ∀ u, ScopedGrantStore.denied store u = .ok (rows.denied u)

theorem groupCandidates_of_answers {A U P E : Type} [ScopedGrantStore A U P E] {store : A} {rows : ScopedRows U P}
    (h : Answers store rows) : ∀ groups : List U,
    groupCandidates store groups =
      .ok (groups.flatMap (fun group => (rows.groupGrants group).map (Prod.mk .group)))
  | [] => rfl
  | group :: groups => by
    unfold groupCandidates
    rw [h.groupGrants group, groupCandidates_of_answers h groups]
    rfl

/-- **On a store that answers, the resolver decides over its rows.** -/
theorem resolve_of_answers {A U P E : Type} [DecidableEq U] [UuidDebug U] [PermissionTree P] [ScopedGrantStore A U P E]
    {store : A} {rows : ScopedRows U P} (h : Answers store rows) (roles : RoleRegistry P)
    (ctx : PermissionContext U) (permission : P) (resourceId : Option String) :
    resolve store roles ctx permission resourceId = .ok (decisionOn rows roles ctx permission) := by
  unfold resolve decisionOn
  by_cases hstale : ctx.isSessionStale = true
  · rw [if_pos hstale, if_pos hstale]
  · rw [if_neg hstale, if_neg hstale]
    by_cases hadmin : ctx.systemRole = .admin
    · rw [if_pos hadmin, if_pos hadmin]
    · rw [if_neg hadmin, if_neg hadmin, h.denied]
      unfold Except.bind resolveAfterDenied
      dsimp only
      cases decidedBefore roles ctx permission (rows.denied ctx.userId) with
      | some decision => rfl
      | none =>
        dsimp only
        rw [h.userGrants, groupCandidates_of_answers h]
        rfl

/-! ## The order of preference -/

section Preference
variable {U P : Type}

def Attachment.rank : Attachment → Nat
  | .user => 0
  | .group => 1

/-- The order of preference: the higher specificity first, then the user's own grants. -/
def preference (candidate : Candidate U P) : ℕᵒᵈ ×ₗ ℕ :=
  toLex (OrderDual.toDual candidate.2.scope.specificity, candidate.1.rank)

theorem preference_lt {c c' : Candidate U P} (h : c'.2.scope.specificity < c.2.scope.specificity) :
    preference c < preference c' := Prod.Lex.toLex_lt_toLex.2 (Or.inl (OrderDual.toDual_lt_toDual.2 h))

theorem preference_le {c c' : Candidate U P} (h : c'.2.scope.specificity ≤ c.2.scope.specificity)
    (ha : c.1.rank ≤ c'.1.rank) : preference c ≤ preference c' := by
  rcases lt_or_eq_of_le h with hlt | heq
  · exact le_of_lt (preference_lt hlt)
  · exact Prod.Lex.toLex_le_toLex.2 (Or.inr ⟨congrArg OrderDual.toDual heq.symm, ha⟩)

/-- The source a preference stands for. -/
def sourceOf (k : ℕᵒᵈ ×ₗ ℕ) : GrantSource :=
  if OrderDual.ofDual (ofLex k).1 = 2 then .workspaceGrant
  else if (ofLex k).2 = 0 then .userGrant
  else .groupGrant

theorem grantSource_eq (c : Candidate U P) : grantSource c.1 c.2.scope = sourceOf (preference c) := by
  obtain ⟨attachment, ⟨permission, scope⟩⟩ := c
  cases attachment <;> cases scope <;> rfl

theorem candidatesOf_pairwise (rows : ScopedRows U P) (ctx : PermissionContext U) :
    (candidatesOf rows ctx).Pairwise (fun c c' => c.1.rank ≤ c'.1.rank) := by
  unfold candidatesOf
  rw [List.pairwise_append]
  refine ⟨?_, ?_, ?_⟩
  · rw [List.pairwise_map]
    exact List.pairwise_of_forall_mem_list (fun _ _ _ _ => le_refl _)
  · refine List.pairwise_of_forall_mem_list (fun c hc c' hc' => ?_)
    obtain ⟨group, -, hc⟩ := List.mem_flatMap.1 hc
    obtain ⟨group', -, hc'⟩ := List.mem_flatMap.1 hc'
    obtain ⟨grant, -, rfl⟩ := List.mem_map.1 hc
    obtain ⟨grant', -, rfl⟩ := List.mem_map.1 hc'
    exact le_refl _
  · intro c hc c' _
    obtain ⟨grant, -, rfl⟩ := List.mem_map.1 hc
    exact Nat.zero_le _

end Preference

/-! ## The best candidate -/

section Best
variable {U P : Type} [DecidableEq U] [PermissionTree P]

/-- The candidates that apply and match. -/
def matching (ctx : PermissionContext U) (permission : P) (candidates : List (Candidate U P)) : Set (Candidate U P) :=
  {c | c ∈ candidates ∧ c.2.scope.appliesTo ctx = true ∧ grantMatches c.2.permission permission = true}

/-- **A step keeps the preferred candidate**, when the candidates seen so far are attached no lower. -/
theorem leastOf_selectStep (ctx : PermissionContext U) (permission : P) {V : Set (Candidate U P)}
    {best : Option (Candidate U P)} {c : Candidate U P} (h : LeastOf (preference '' V) (best.map preference))
    (hbest : ∀ b, best = some b → b.1.rank ≤ c.1.rank) :
    LeastOf (preference '' (V ∪ {x | x = c ∧ c.2.scope.appliesTo ctx = true ∧ grantMatches c.2.permission permission = true}))
      ((selectStep ctx permission best c).map preference) := by
  unfold selectStep
  by_cases hc : (c.2.scope.appliesTo ctx && grantMatches c.2.permission permission) = true
  · have hset : preference '' (V ∪ {x | x = c ∧ c.2.scope.appliesTo ctx = true ∧
        grantMatches c.2.permission permission = true}) = insert (preference c) (preference '' V) := by
      have hx : {x | x = c ∧ c.2.scope.appliesTo ctx = true ∧ grantMatches c.2.permission permission = true} = {c} := by
        ext x
        simpa using fun _ => Bool.and_eq_true_iff.1 hc
      rw [hx, Set.union_singleton, Set.image_insert_eq]
    rw [if_pos hc, hset]
    dsimp only
    cases best with
    | none => exact h.insert_none _
    | some b =>
      rw [Option.all_some]
      by_cases hlt : c.2.scope.specificity > b.2.scope.specificity
      · rw [if_pos (decide_eq_true hlt)]
        exact h.insert_of_lt (preference_lt hlt)
      · rw [if_neg (by simpa using hlt)]
        exact h.insert_of_le (preference_le (Nat.le_of_not_lt hlt) (hbest b rfl))
  · have hx : {x | x = c ∧ c.2.scope.appliesTo ctx = true ∧ grantMatches c.2.permission permission = true} = ∅ := by
      refine Set.eq_empty_of_forall_notMem ?_
      rintro x ⟨-, ha, hm⟩
      exact hc (Bool.and_eq_true_iff.2 ⟨ha, hm⟩)
    rw [if_neg hc, hx, Set.union_empty]
    exact h

theorem selectStep_eq_some {ctx : PermissionContext U} {permission : P} {best : Option (Candidate U P)}
    {c b : Candidate U P} (h : selectStep ctx permission best c = some b) : b = c ∨ best = some b := by
  unfold selectStep at h
  dsimp only at h
  split at h
  · split at h
    · exact Or.inl (Option.some.inj h).symm
    · exact Or.inr h
  · exact Or.inr h

theorem leastOf_foldl_selectStep (ctx : PermissionContext U) (permission : P) : ∀ (l : List (Candidate U P))
    {V : Set (Candidate U P)} {best : Option (Candidate U P)}, LeastOf (preference '' V) (best.map preference) →
    (∀ b, best = some b → ∀ c ∈ l, b.1.rank ≤ c.1.rank) → l.Pairwise (fun c c' => c.1.rank ≤ c'.1.rank) →
    LeastOf (preference '' (V ∪ matching ctx permission l)) ((l.foldl (selectStep ctx permission) best).map preference)
  | [], V, best, h, _, _ => by
    have hnil : matching ctx permission ([] : List (Candidate U P)) = ∅ :=
      Set.eq_empty_of_forall_notMem (fun x hx => List.not_mem_nil hx.1)
    rw [hnil, Set.union_empty]
    exact h
  | c :: l, V, best, h, hbest, hl => by
    rw [List.pairwise_cons] at hl
    have hstep := leastOf_selectStep ctx permission h
      (fun b hb => hbest b hb c List.mem_cons_self)
    have ih := leastOf_foldl_selectStep ctx permission l hstep (fun b hb c' hc' => ?_) hl.2
    · rw [List.foldl_cons]
      convert ih using 2
      ext x
      simp only [matching, Set.mem_union, Set.mem_ofPred_eq, List.mem_cons]
      constructor
      · rintro (hx | ⟨rfl | hx, hrest⟩)
        · exact Or.inl (Or.inl hx)
        · exact Or.inl (Or.inr ⟨rfl, hrest⟩)
        · exact Or.inr ⟨hx, hrest⟩
      · rintro ((hx | ⟨rfl, hrest⟩) | ⟨hx, hrest⟩)
        · exact Or.inl hx
        · exact Or.inr ⟨Or.inl rfl, hrest⟩
        · exact Or.inr ⟨Or.inr hx, hrest⟩
    · rcases selectStep_eq_some hb with rfl | hb
      · exact hl.1 c' hc'
      · exact hbest b hb c' (List.mem_cons_of_mem c hc')

theorem mem_matching_candidatesOf {rows : ScopedRows U P} {ctx : PermissionContext U} {permission : P}
    {c : Candidate U P} :
    c ∈ matching ctx permission (candidatesOf rows ctx) ↔ Applicable rows ctx permission c := by
  obtain ⟨attachment, grant⟩ := c
  unfold matching candidatesOf Applicable
  rw [Set.mem_ofPred_eq]
  refine and_congr_left (fun _ => ?_)
  rw [List.mem_append]
  refine or_congr ?_ ?_
  · cases attachment <;> simp
  · cases attachment <;> simp

/-- The preferences of the applicable grants. -/
def preferences (rows : ScopedRows U P) (ctx : PermissionContext U) (permission : P) : Set (ℕᵒᵈ ×ₗ ℕ) :=
  preference '' {c | Applicable rows ctx permission c}

/-- **The best candidate is a most preferred applicable grant.** -/
theorem leastOf_bestCandidate (rows : ScopedRows U P) (ctx : PermissionContext U) (permission : P) :
    LeastOf (preferences rows ctx permission)
      ((bestCandidate ctx permission (candidatesOf rows ctx)).map preference) := by
  have hnone : LeastOf (preference '' (∅ : Set (Candidate U P))) ((none : Option (Candidate U P)).map preference) :=
    Set.image_empty _
  have h := leastOf_foldl_selectStep ctx permission (candidatesOf rows ctx) hnone nofun (candidatesOf_pairwise rows ctx)
  rw [Set.empty_union] at h
  have hset : matching ctx permission (candidatesOf rows ctx) = {c | Applicable rows ctx permission c} :=
    Set.ext (fun c => mem_matching_candidatesOf)
  rw [hset] at h
  exact h

end Best

/-! ## The outcome -/

theorem scopedDecision_outcome {U P : Type} [UuidDebug U] (best : Option (Candidate U P)) :
    (scopedDecision best).outcome = ((best.map preference).isSome, (best.map preference).map sourceOf) := by
  cases best with
  | none => rfl
  | some c => exact congrArg (Prod.mk true) (congrArg some (grantSource_eq c))

section Cases
variable {U P : Type} [DecidableEq U] [UuidDebug U] [PermissionTree P]
variable {rows : ScopedRows U P} {roles : RoleRegistry P} {ctx : PermissionContext U} {permission : P}

theorem outcome_of_stale (h : ctx.isSessionStale = true) :
    (decisionOn rows roles ctx permission).outcome = (false, none) := by
  unfold decisionOn
  rw [if_pos h]
  rfl

theorem outcome_of_admin (hfresh : ctx.isSessionStale = false) (h : ctx.systemRole = .admin) :
    (decisionOn rows roles ctx permission).outcome = (true, some .adminBypass) := by
  unfold decisionOn
  rw [if_neg (by simp [hfresh]), if_pos h]
  rfl

theorem outcome_of_deny (hfresh : ctx.isSessionStale = false) (hrole : ctx.systemRole ≠ .admin)
    (h : DenyMatches rows ctx permission) : (decisionOn rows roles ctx permission).outcome = (false, none) := by
  have hdeny : anyMatches (rows.denied ctx.userId) permission = true := (anyMatches_iff _ _).2 h
  unfold decisionOn decidedBefore
  rw [if_neg (by simp [hfresh]), if_neg hrole, if_pos hdeny]
  rfl

theorem outcome_of_default (hfresh : ctx.isSessionStale = false) (hrole : ctx.systemRole ≠ .admin)
    (hdeny : ¬ DenyMatches rows ctx permission) (h : DefaultMatches roles ctx permission) :
    (decisionOn rows roles ctx permission).outcome = (true, some .roleDefault) := by
  have hdefault := (roleDefaultMatches_iff roles ctx permission).2 h
  unfold decisionOn decidedBefore
  rw [if_neg (by simp [hfresh]), if_neg hrole, if_neg (mt (anyMatches_iff _ _).1 hdeny), if_pos hdefault]
  rfl

theorem outcome_of_scoped (hfresh : ctx.isSessionStale = false) (hrole : ctx.systemRole ≠ .admin)
    (hdeny : ¬ DenyMatches rows ctx permission) (hdefault : ¬ DefaultMatches roles ctx permission) :
    ∃ key, LeastOf (preferences rows ctx permission) key ∧
      (decisionOn rows roles ctx permission).outcome = (key.isSome, key.map sourceOf) := by
  refine ⟨_, leastOf_bestCandidate rows ctx permission, ?_⟩
  have hdecided : decidedBefore roles ctx permission (rows.denied ctx.userId) = none := by
    unfold decidedBefore
    rw [if_neg (mt (anyMatches_iff _ _).1 hdeny), if_neg (mt (roleDefaultMatches_iff roles ctx permission).1 hdefault)]
  unfold decisionOn
  rw [if_neg (by simp [hfresh]), if_neg hrole, hdecided]
  exact scopedDecision_outcome _

/-- **The resolver grants exactly when the rows say so.** -/
theorem isGranted_iff : (decisionOn rows roles ctx permission).isGranted = true ↔
    GrantsPermission rows roles ctx permission := by
  unfold PermissionDecision.isGranted GrantsPermission
  cases hstale : ctx.isSessionStale with
  | true => simp [outcome_of_stale hstale]
  | false =>
    by_cases hadmin : ctx.systemRole = .admin
    · simp [outcome_of_admin hstale hadmin, hadmin]
    by_cases hdeny : DenyMatches rows ctx permission
    · simp [outcome_of_deny hstale hadmin hdeny, hadmin, hdeny]
    by_cases hdefault : DefaultMatches roles ctx permission
    · simp [outcome_of_default hstale hadmin hdeny hdefault, hdeny, hdefault]
    obtain ⟨key, hkey, hout⟩ := outcome_of_scoped hstale hadmin hdeny hdefault
    rw [hout]
    simp only [hadmin, hdeny, hdefault, not_false_eq_true, true_and, false_or]
    cases key with
    | none =>
      have hempty := Set.image_eq_empty.1 (Lib.leastOf_none.1 hkey)
      simp only [Option.isSome_none, Bool.false_eq_true, false_iff, not_exists]
      exact fun c hc => Set.notMem_empty c (hempty ▸ hc)
    | some k =>
      obtain ⟨c, hc, -⟩ := hkey.1
      simp only [Option.isSome_some, true_iff]
      exact ⟨c, hc⟩

/-- **The source of a scoped grant is that of any applicable grant none is preferred to**: the highest specificity,
and at that specificity the user's own grants before the groups'. -/
theorem outcome_of_preferred (hfresh : ctx.isSessionStale = false) (hrole : ctx.systemRole ≠ .admin)
    (hdeny : ¬ DenyMatches rows ctx permission) (hdefault : ¬ DefaultMatches roles ctx permission)
    {c : Candidate U P} (hc : Applicable rows ctx permission c)
    (hbest : ∀ c', Applicable rows ctx permission c' → c'.2.scope.specificity < c.2.scope.specificity ∨
      c'.2.scope.specificity = c.2.scope.specificity ∧ c.1.rank ≤ c'.1.rank) :
    (decisionOn rows roles ctx permission).outcome = (true, some (grantSource c.1 c.2.scope)) := by
  obtain ⟨key, hkey, hout⟩ := outcome_of_scoped hfresh hrole hdeny hdefault
  have hleast : LeastOf (preferences rows ctx permission) (some (preference c)) := by
    refine ⟨Set.mem_image_of_mem _ hc, ?_⟩
    rintro _ ⟨c', hc', rfl⟩
    rcases hbest c' hc' with hlt | ⟨heq, ha⟩
    · exact le_of_lt (preference_lt hlt)
    · exact preference_le (le_of_eq heq) ha
  rw [hout, hkey.unique hleast, grantSource_eq]
  rfl

end Cases

/-! ## Other rows, other contexts -/

section Compare
variable {U P : Type}

/-- The same rows and the same groups, in any order and number. -/
structure SameSets (rows rows' : ScopedRows U P) (ctx ctx' : PermissionContext U) : Prop where
  userId : ctx'.userId = ctx.userId
  systemRole : ctx'.systemRole = ctx.systemRole
  workspaceId : ctx'.workspaceId = ctx.workspaceId
  sessionVersion : ctx'.sessionVersion = ctx.sessionVersion
  currentUserVersion : ctx'.currentUserVersion = ctx.currentUserVersion
  groupIds : ∀ g, g ∈ ctx'.groupIds ↔ g ∈ ctx.groupIds
  userGrants : ∀ u grant, grant ∈ rows'.userGrants u ↔ grant ∈ rows.userGrants u
  groupGrants : ∀ g grant, grant ∈ rows'.groupGrants g ↔ grant ∈ rows.groupGrants g
  denied : ∀ u, rows'.denied u = rows.denied u

/-- Rows with every grant of the others, and the same denies. -/
structure MoreGrants (rows rows' : ScopedRows U P) : Prop where
  userGrants : ∀ u, rows.userGrants u ⊆ rows'.userGrants u
  groupGrants : ∀ g, rows.groupGrants g ⊆ rows'.groupGrants g
  denied : ∀ u, rows'.denied u = rows.denied u

/-- Rows with every deny of the others, and the same grants. -/
structure MoreDenies (rows rows' : ScopedRows U P) : Prop where
  userGrants : ∀ u, rows'.userGrants u = rows.userGrants u
  groupGrants : ∀ g, rows'.groupGrants g = rows.groupGrants g
  denied : ∀ u, rows.denied u ⊆ rows'.denied u

section Congr
variable [DecidableEq U]

theorem appliesTo_congr {rows rows' : ScopedRows U P} {ctx ctx' : PermissionContext U}
    (h : SameSets rows rows' ctx ctx') (scope : GrantScope U) : scope.appliesTo ctx' = scope.appliesTo ctx := by
  cases scope with
  | global => rfl
  | group g =>
    unfold GrantScope.appliesTo
    rw [Bool.eq_iff_iff, List.contains_iff_mem, List.contains_iff_mem]
    exact h.groupIds g
  | workspace w => simp [GrantScope.appliesTo, h.workspaceId]

variable [PermissionTree P]

theorem applicable_congr {rows rows' : ScopedRows U P} {ctx ctx' : PermissionContext U}
    (h : SameSets rows rows' ctx ctx') (permission : P) (c : Candidate U P) :
    Applicable rows' ctx' permission c ↔ Applicable rows ctx permission c := by
  unfold Applicable
  rw [appliesTo_congr h, h.userId, h.userGrants]
  simp only [h.groupIds, h.groupGrants]

/-- **The decision and its source read the rows and the groups as sets.** -/
theorem outcome_congr [UuidDebug U] {rows rows' : ScopedRows U P} {ctx ctx' : PermissionContext U}
    (h : SameSets rows rows' ctx ctx') (roles : RoleRegistry P) (permission : P) :
    (decisionOn rows' roles ctx' permission).outcome = (decisionOn rows roles ctx permission).outcome := by
  have hstale : ctx'.isSessionStale = ctx.isSessionStale := by
    unfold PermissionContext.isSessionStale
    rw [h.sessionVersion, h.currentUserVersion]
  have hdeny : DenyMatches rows' ctx' permission ↔ DenyMatches rows ctx permission := by
    unfold DenyMatches
    rw [h.userId, h.denied]
  have hdefault : DefaultMatches roles ctx' permission ↔ DefaultMatches roles ctx permission := by
    unfold DefaultMatches
    rw [h.systemRole]
  cases hs : ctx.isSessionStale with
  | true => rw [outcome_of_stale hs, outcome_of_stale (hstale.trans hs)]
  | false =>
    by_cases hadmin : ctx.systemRole = .admin
    · rw [outcome_of_admin hs hadmin, outcome_of_admin (hstale.trans hs) (h.systemRole.trans hadmin)]
    have hadmin' : ctx'.systemRole ≠ .admin := h.systemRole ▸ hadmin
    by_cases hd : DenyMatches rows ctx permission
    · rw [outcome_of_deny hs hadmin hd, outcome_of_deny (hstale.trans hs) hadmin' (hdeny.2 hd)]
    by_cases hr : DefaultMatches roles ctx permission
    · rw [outcome_of_default hs hadmin hd hr,
        outcome_of_default (hstale.trans hs) hadmin' (mt hdeny.1 hd) (hdefault.2 hr)]
    obtain ⟨key, hkey, hout⟩ := outcome_of_scoped hs hadmin hd hr
    obtain ⟨key', hkey', hout'⟩ := outcome_of_scoped (hstale.trans hs) hadmin' (mt hdeny.1 hd) (mt hdefault.1 hr)
    have hset : preferences rows' ctx' permission = preferences rows ctx permission := by
      unfold preferences
      simp only [applicable_congr h]
    rw [hout, hout', hkey'.unique (hset ▸ hkey)]

/-- **Adding grants keeps a grant.** -/
theorem grantsPermission_mono {rows rows' : ScopedRows U P} (h : MoreGrants rows rows') {roles : RoleRegistry P}
    {ctx : PermissionContext U} {permission : P} (hg : GrantsPermission rows roles ctx permission) :
    GrantsPermission rows' roles ctx permission := by
  obtain ⟨hfresh, hadmin | ⟨hdeny, hgrant⟩⟩ := hg
  · exact ⟨hfresh, Or.inl hadmin⟩
  refine ⟨hfresh, Or.inr ⟨?_, hgrant.imp_right ?_⟩⟩
  · unfold DenyMatches
    rw [h.denied]
    exact hdeny
  · rintro ⟨c, hattached, hrest⟩
    refine ⟨c, hattached.imp ?_ ?_, hrest⟩
    · exact fun hu => ⟨hu.1, h.userGrants _ hu.2⟩
    · rintro ⟨hgroup, group, hmem, hrow⟩
      exact ⟨hgroup, group, hmem, h.groupGrants _ hrow⟩

/-- **Adding denies grants nothing new.** -/
theorem grantsPermission_of_moreDenies {rows rows' : ScopedRows U P} (h : MoreDenies rows rows') {roles : RoleRegistry P}
    {ctx : PermissionContext U} {permission : P} (hg : GrantsPermission rows' roles ctx permission) :
    GrantsPermission rows roles ctx permission := by
  obtain ⟨hfresh, hadmin | ⟨hdeny, hgrant⟩⟩ := hg
  · exact ⟨hfresh, Or.inl hadmin⟩
  refine ⟨hfresh, Or.inr ⟨fun ⟨d, hd, hmatch⟩ => hdeny ⟨d, h.denied _ hd, hmatch⟩, hgrant.imp_right ?_⟩⟩
  rintro ⟨c, hattached, hrest⟩
  rw [h.userGrants] at hattached
  simp only [h.groupGrants] at hattached
  exact ⟨c, hattached, hrest⟩

end Congr
end Compare

/-! ## The in-memory store -/

/-- A write of the in-memory store. -/
inductive ScopedWrite (U P : Type) where
  | grantUser (user : U) (grant : ScopedGrant U P)
  | grantGroup (group : U) (grant : ScopedGrant U P)
  | deny (user : U) (permission : P)

def ScopedWrite.isDeny {U P : Type} : ScopedWrite U P → Bool
  | .deny _ _ => true
  | _ => false

namespace MemoryScopedGrantStore

section Writes
variable {U P : Type} [DecidableEq U]

def rows (st : MemoryScopedGrantStore U P) : ScopedRows U P where
  userGrants u := (st.user.get? u).getD []
  groupGrants g := (st.group.get? g).getD []
  denied u := (st.denies.get? u).getD ∅

theorem answers (st : MemoryScopedGrantStore U P) : Answers st st.rows where
  userGrants _ := rfl
  groupGrants _ := rfl
  denied _ := rfl

/-- What the resolver grants over the store. -/
def Granted [UuidDebug U] [PermissionTree P] (st : MemoryScopedGrantStore U P) (roles : RoleRegistry P)
    (ctx : PermissionContext U) (permission : P) (resourceId : Option String) : Prop :=
  ∃ decision, resolve st roles ctx permission resourceId = .ok decision ∧ decision.isGranted = true

theorem granted_iff [UuidDebug U] [PermissionTree P] (st : MemoryScopedGrantStore U P) {roles : RoleRegistry P}
    {ctx : PermissionContext U} {permission : P} (resourceId : Option String) :
    st.Granted roles ctx permission resourceId ↔ GrantsPermission st.rows roles ctx permission := by
  unfold Granted
  rw [resolve_of_answers st.answers, ← isGranted_iff]
  simp

/-- A grant pushed under one key leaves the rows of every key among the new ones. -/
theorem getD_subset_insert (m : HashMap U (List (ScopedGrant U P))) (k k' : U) (grant : ScopedGrant U P) :
    (m.get? k').getD [] ⊆ ((m.insert k ((m.get? k).getD [] ++ [grant])).get? k').getD [] := by
  rw [HashMap.get?_insert]
  split
  · next heq =>
    rw [heq]
    exact List.subset_append_left _ _
  · exact List.Subset.refl _

theorem moreGrants_grantUser (st : MemoryScopedGrantStore U P) (user : U) (grant : ScopedGrant U P) :
    MoreGrants st.rows (st.grantUser user grant).rows where
  userGrants u := getD_subset_insert st.user user u grant
  groupGrants _ := List.Subset.refl _
  denied _ := rfl

theorem moreGrants_grantGroup (st : MemoryScopedGrantStore U P) (group : U) (grant : ScopedGrant U P) :
    MoreGrants st.rows (st.grantGroup group grant).rows where
  userGrants _ := List.Subset.refl _
  groupGrants g := getD_subset_insert st.group group g grant
  denied _ := rfl

variable [DecidableEq P]

theorem moreDenies_deny (st : MemoryScopedGrantStore U P) (user : U) (permission : P) :
    MoreDenies st.rows (st.deny user permission).rows where
  userGrants _ := rfl
  groupGrants _ := rfl
  denied u := by
    unfold rows deny
    dsimp only
    rw [HashMap.get?_insert]
    split
    · next heq =>
      rw [heq]
      exact Finset.subset_insert _ _
    · exact Finset.Subset.refl _

def perform (st : MemoryScopedGrantStore U P) : ScopedWrite U P → MemoryScopedGrantStore U P
  | .grantUser user grant => st.grantUser user grant
  | .grantGroup group grant => st.grantGroup group grant
  | .deny user permission => st.deny user permission

variable [PermissionTree P] {roles : RoleRegistry P} {ctx : PermissionContext U} {permission : P}

theorem grantsPermission_of_grants : ∀ (ws : List (ScopedWrite U P)) (st : MemoryScopedGrantStore U P),
    (∀ w ∈ ws, w.isDeny = false) → GrantsPermission st.rows roles ctx permission →
      GrantsPermission (ws.foldl perform st).rows roles ctx permission
  | [], _, _, h => h
  | w :: ws, st, hws, h => by
    obtain ⟨hw, hws⟩ := List.forall_mem_cons.1 hws
    refine grantsPermission_of_grants ws (st.perform w) hws ?_
    cases w with
    | grantUser user grant => exact grantsPermission_mono (st.moreGrants_grantUser user grant) h
    | grantGroup group grant => exact grantsPermission_mono (st.moreGrants_grantGroup group grant) h
    | deny user permission => cases hw

theorem grantsPermission_of_denies : ∀ (ws : List (ScopedWrite U P)) (st : MemoryScopedGrantStore U P),
    (∀ w ∈ ws, w.isDeny = true) → GrantsPermission (ws.foldl perform st).rows roles ctx permission →
      GrantsPermission st.rows roles ctx permission
  | [], _, _, h => h
  | w :: ws, st, hws, h => by
    obtain ⟨hw, hws⟩ := List.forall_mem_cons.1 hws
    have hnext := grantsPermission_of_denies ws (st.perform w) hws h
    cases w with
    | grantUser user grant => cases hw
    | grantGroup group grant => cases hw
    | deny user permission => exact grantsPermission_of_moreDenies (st.moreDenies_deny user permission) hnext

/-- **No run of grants takes a permission away, and no run of denies gives one.** -/
theorem granted_run [UuidDebug U] (st : MemoryScopedGrantStore U P) (ws : List (ScopedWrite U P))
    (resourceId : Option String) :
    ((∀ w ∈ ws, w.isDeny = false) → st.Granted roles ctx permission resourceId →
      (ws.foldl perform st).Granted roles ctx permission resourceId) ∧
    ((∀ w ∈ ws, w.isDeny = true) → (ws.foldl perform st).Granted roles ctx permission resourceId →
      st.Granted roles ctx permission resourceId) := by
  simp only [granted_iff]
  exact ⟨grantsPermission_of_grants ws st, grantsPermission_of_denies ws st⟩

end Writes

end MemoryScopedGrantStore

/-! ## Failing queries -/

inductive GrantQuery (U : Type) where
  | denied (userId : U)
  | userGrants (userId : U)
  | groupGrants (groupId : U)

/-- The store fails the query with this error. -/
def GrantQuery.FailsWith {A U P E : Type} [ScopedGrantStore A U P E] (store : A) (e : E) : GrantQuery U → Prop
  | .denied u => ScopedGrantStore.denied store u = .error e
  | .userGrants u => ScopedGrantStore.userGrants store u = .error e
  | .groupGrants g => ScopedGrantStore.groupGrants store g = .error e

/-- The queries a resolution makes: the deny set first, then the user's grants when nothing has decided, then the
groups' one after another. -/
inductive Asks {A U P E : Type} [PermissionTree P] [ScopedGrantStore A U P E] (store : A) (roles : RoleRegistry P)
    (ctx : PermissionContext U) (permission : P) : GrantQuery U → Prop where
  | denied (hfresh : ctx.isSessionStale = false) (hrole : ctx.systemRole ≠ .admin) :
    Asks store roles ctx permission (.denied ctx.userId)
  | userGrants (hfresh : ctx.isSessionStale = false) (hrole : ctx.systemRole ≠ .admin) (denied : Finset P)
      (hdenied : ScopedGrantStore.denied store ctx.userId = .ok denied)
      (hopen : decidedBefore roles ctx permission denied = none) :
    Asks store roles ctx permission (.userGrants ctx.userId)
  | groupGrants (hfresh : ctx.isSessionStale = false) (hrole : ctx.systemRole ≠ .admin) (denied : Finset P)
      (hdenied : ScopedGrantStore.denied store ctx.userId = .ok denied)
      (hopen : decidedBefore roles ctx permission denied = none) (grants : List (ScopedGrant U P))
      (huser : ScopedGrantStore.userGrants store ctx.userId = .ok grants) (before : List U) (group : U) (after : List U)
      (hgroups : ctx.groupIds = before ++ group :: after)
      (hbefore : ∀ g ∈ before, ∃ rows, ScopedGrantStore.groupGrants store g = .ok rows) :
    Asks store roles ctx permission (.groupGrants group)

section Errors
variable {A U P E : Type} [ScopedGrantStore A U P E]

theorem groupCandidates_eq_error_iff (store : A) (e : E) : ∀ groups : List U,
    groupCandidates store groups = .error e ↔ ∃ before group after, groups = before ++ group :: after ∧
      (∀ g ∈ before, ∃ rows, ScopedGrantStore.groupGrants store g = .ok rows) ∧
      ScopedGrantStore.groupGrants store group = .error e
  | [] => by simp [groupCandidates]
  | group :: groups => by
    unfold groupCandidates
    simp only [bind_eq_error_iff, reduceCtorEq, and_false, exists_false, or_false,
      groupCandidates_eq_error_iff store e groups]
    constructor
    · rintro (hfail | ⟨rows, hok, before, g, after, rfl, hbefore, hfail⟩)
      · exact ⟨[], group, groups, rfl, nofun, hfail⟩
      · refine ⟨group :: before, g, after, rfl, fun b hb => ?_, hfail⟩
        rcases List.mem_cons.1 hb with rfl | hb
        · exact ⟨rows, hok⟩
        · exact hbefore b hb
    · rintro ⟨before, g, after, hsplit, hbefore, hfail⟩
      cases before with
      | nil =>
        obtain ⟨rfl, -⟩ := List.cons.inj hsplit
        exact Or.inl hfail
      | cons b before =>
        obtain ⟨rfl, hrest⟩ := List.cons.inj hsplit
        obtain ⟨rows, hok⟩ := hbefore group List.mem_cons_self
        exact Or.inr ⟨rows, hok, before, g, after, hrest, fun x hx => hbefore x (List.mem_cons_of_mem _ hx), hfail⟩

variable [DecidableEq U] [UuidDebug U] [PermissionTree P]

/-- **The resolver fails exactly when a query it makes fails, and with its error.** -/
theorem resolve_eq_error_iff (store : A) (roles : RoleRegistry P) (ctx : PermissionContext U) (permission : P)
    (resourceId : Option String) (e : E) :
    resolve store roles ctx permission resourceId = .error e ↔
      ∃ q, Asks store roles ctx permission q ∧ q.FailsWith store e := by
  have hrest : ∀ denied, resolveAfterDenied store roles ctx permission denied = .error e ↔
      decidedBefore roles ctx permission denied = none ∧ (ScopedGrantStore.userGrants store ctx.userId = .error e ∨
        ∃ grants, ScopedGrantStore.userGrants store ctx.userId = .ok grants ∧
          groupCandidates store ctx.groupIds = .error e) := by
    intro denied
    unfold resolveAfterDenied
    cases decidedBefore roles ctx permission denied with
    | some decision => simp
    | none => simp only [bind_eq_error_iff, reduceCtorEq, and_false, exists_false, or_false, true_and]
  unfold resolve
  cases hfresh : ctx.isSessionStale with
  | true =>
    rw [if_pos rfl]
    refine ⟨nofun, ?_⟩
    rintro ⟨q, hq, -⟩
    cases hq <;> simp_all
  | false =>
    rw [if_neg (by decide)]
    by_cases hrole : ctx.systemRole = .admin
    · rw [if_pos hrole]
      refine ⟨nofun, ?_⟩
      rintro ⟨q, hq, -⟩
      cases hq <;> exact absurd hrole ‹_›
    · rw [if_neg hrole, bind_eq_error_iff]
      simp only [hrest, groupCandidates_eq_error_iff]
      constructor
      · rintro (hfail | ⟨denied, hdenied, hopen, hfail | ⟨grants, huser, before, g, after, hsplit, hbefore, hfail⟩⟩)
        · exact ⟨_, .denied hfresh hrole, hfail⟩
        · exact ⟨_, .userGrants hfresh hrole denied hdenied hopen, hfail⟩
        · exact ⟨_, .groupGrants hfresh hrole denied hdenied hopen grants huser before g after hsplit hbefore, hfail⟩
      · rintro ⟨q, hq, hfail⟩
        cases hq with
        | denied => exact Or.inl hfail
        | userGrants _ _ denied hdenied hopen => exact Or.inr ⟨denied, hdenied, hopen, Or.inl hfail⟩
        | groupGrants _ _ denied hdenied hopen grants huser before g after hsplit hbefore =>
          exact Or.inr ⟨denied, hdenied, hopen, Or.inr ⟨grants, huser, before, g, after, hsplit, hbefore, hfail⟩⟩

/-- **The scoped resolver is its specification.**  On a store that answers it grants exactly when the rows say so; the
source of a scoped grant is that of an applicable grant none is preferred to; the decision and its source are those of
the rows and the groups as sets; more grants keep a grant and more denies grant nothing new.  On any store it fails
with the error of a query it makes, and only so. -/
theorem resolve_spec (roles : RoleRegistry P) (ctx : PermissionContext U) (permission : P) (resourceId : Option String) :
    (∀ (store : A) (rows : ScopedRows U P), Answers store rows →
      ∃ decision, resolve store roles ctx permission resourceId = .ok decision ∧
        (decision.isGranted = true ↔ GrantsPermission rows roles ctx permission) ∧
        (ctx.isSessionStale = false → ctx.systemRole ≠ .admin → ¬ DenyMatches rows ctx permission →
          ¬ DefaultMatches roles ctx permission → ∀ c, Applicable rows ctx permission c →
          (∀ c', Applicable rows ctx permission c' → c'.2.scope.specificity < c.2.scope.specificity ∨
            c'.2.scope.specificity = c.2.scope.specificity ∧ c.1.rank ≤ c'.1.rank) →
          decision.outcome = (true, some (grantSource c.1 c.2.scope))) ∧
        ∀ (store' : A) (rows' : ScopedRows U P) (resourceId' : Option String), Answers store' rows' →
          (∀ ctx', SameSets rows rows' ctx ctx' →
            ∃ decision', resolve store' roles ctx' permission resourceId' = .ok decision' ∧
              decision'.outcome = decision.outcome) ∧
          ∃ decision', resolve store' roles ctx permission resourceId' = .ok decision' ∧
            (MoreGrants rows rows' → decision.isGranted = true → decision'.isGranted = true) ∧
            (MoreDenies rows rows' → decision.isGranted = false → decision'.isGranted = false)) ∧
    ∀ (store : A) (e : E), resolve store roles ctx permission resourceId = .error e ↔
      ∃ q, Asks store roles ctx permission q ∧ q.FailsWith store e := by
  refine ⟨fun store rows hrows => ?_, fun store e => resolve_eq_error_iff store roles ctx permission resourceId e⟩
  refine ⟨decisionOn rows roles ctx permission, resolve_of_answers hrows roles ctx permission resourceId,
    isGranted_iff, fun hfresh hrole hdeny hdefault c hc hbest =>
      outcome_of_preferred hfresh hrole hdeny hdefault hc hbest, ?_⟩
  intro store' rows' resourceId' hrows'
  refine ⟨fun ctx' hsame => ⟨_, resolve_of_answers hrows' roles ctx' permission resourceId',
    outcome_congr hsame roles permission⟩, _, resolve_of_answers hrows' roles ctx permission resourceId', ?_, ?_⟩
  · intro hmore hgranted
    rw [isGranted_iff] at hgranted ⊢
    exact grantsPermission_mono hmore hgranted
  · intro hmore hdenied
    rw [Bool.eq_false_iff, ne_eq, isGranted_iff] at hdenied ⊢
    exact mt (grantsPermission_of_moreDenies hmore) hdenied

end Errors

end Rbac
end Kirino
