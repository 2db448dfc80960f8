import Mathlib.Data.Finset.Card
import Kirino.Rbac.Traits
/-!
# Hierarchy — the permissions a role inherits (`rbac/hierarchy/mod.rs`)

`resolveRoleChain` walks a role's parents with an explicit stack and a visited set.  The walk ends because a known
role is expanded once: each turn of the loop takes a known role out of the unvisited ones, or takes a name off the
stack without pushing any.
-/
namespace Kirino
namespace Rbac

variable {P : Type}

def unvisited (registry : RoleRegistry P) (visited : Finset String) : Finset String :=
  registry.listRoleNames.toFinset \ visited

theorem card_unvisited_insert_le (registry : RoleRegistry P) (visited : Finset String) (current : String) :
    (unvisited registry (insert current visited)).card ≤ (unvisited registry visited).card :=
  Finset.card_le_card (Finset.sdiff_subset_sdiff (Finset.Subset.refl _) (Finset.subset_insert _ _))

theorem card_unvisited_insert_lt (registry : RoleRegistry P) (visited : Finset String) (current : String)
    (hv : current ∉ visited) (hk : (registry.getRolePermissions current).isSome) :
    (unvisited registry (insert current visited)).card < (unvisited registry visited).card := by
  refine Finset.card_lt_card (Finset.ssubset_iff_subset_ne.2 ⟨?_, fun heq => ?_⟩)
  · exact Finset.sdiff_subset_sdiff (Finset.Subset.refl _) (Finset.subset_insert _ _)
  · have hmem : current ∈ unvisited registry visited :=
      Finset.mem_sdiff.2 ⟨List.mem_toFinset.2 (registry.listed current hk), hv⟩
    rw [← heq] at hmem
    exact (Finset.mem_sdiff.1 hmem).2 (Finset.mem_insert_self _ _)

variable [DecidableEq P]

/-- The loop of `resolveRoleChain`; the top of the stack is the head of the list. -/
def resolveLoop (registry : RoleRegistry P) (allPerms : Finset P) (visited : Finset String) :
    List String → Finset P
  | [] => allPerms
  | current :: stack =>
    if _hv : current ∈ visited then resolveLoop registry allPerms visited stack
    else
      let visited' := insert current visited
      match _hk : registry.getRolePermissions current with
      | some perms =>
        -- parents are pushed in order, so the last one is on top
        let pushed := (registry.roleParents current).filter (fun parent => decide (parent ∉ visited'))
        resolveLoop registry (allPerms ∪ perms) visited' (pushed.reverse ++ stack)
      | none => resolveLoop registry allPerms visited' stack
  termination_by stack => ((unvisited registry visited).card, stack.length)
  decreasing_by
    · exact Prod.Lex.right _ (by simp)
    · exact Prod.Lex.left _ _ (card_unvisited_insert_lt registry visited current _hv (by rw [_hk]; rfl))
    · rcases Nat.lt_or_eq_of_le (card_unvisited_insert_le registry visited current) with h | h
      · exact Prod.Lex.left _ _ h
      · rw [h]; exact Prod.Lex.right _ (by simp)

/-- The permissions of a role and of every role reachable through known roles. -/
def resolveRoleChain (roleName : String) (registry : RoleRegistry P) : Finset P :=
  resolveLoop registry ∅ ∅ [roleName]

inductive CheckPath where
  | flat
  | hierarchical
deriving DecidableEq, Repr

/-- The permissions a held role gives on a decision path; an unknown role gives none. -/
def rolePermissions (registry : RoleRegistry P) : CheckPath → String → Finset P
  | .flat, roleName => (registry.getRolePermissions roleName).getD ∅
  | .hierarchical, roleName => resolveRoleChain roleName registry

/-- **What the component is for**: a subject holds a permission when it is not denied, and is granted directly or by a
held role. -/
def SubjectRows.Grants (rows : SubjectRows P) (registry : RoleRegistry P) (path : CheckPath) (p : P) : Prop :=
  p ∉ rows.denied ∧ (p ∈ rows.extra ∨ ∃ roleName ∈ rows.roles, p ∈ rolePermissions registry path roleName)

instance (rows : SubjectRows P) (registry : RoleRegistry P) (path : CheckPath) (p : P) :
    Decidable (rows.Grants registry path p) :=
  inferInstanceAs (Decidable (_ ∧ _))

theorem SubjectRows.not_grants_of_denied (rows : SubjectRows P) (registry : RoleRegistry P) (path : CheckPath) {p : P}
    (h : p ∈ rows.denied) : ¬ rows.Grants registry path p := fun hg => hg.1 h

end Rbac
end Kirino
