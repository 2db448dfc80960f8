import Kirino.Lib.Reach
import Kirino.Rbac.Hierarchy
/-!
# Role chain — what a role inherits, as reachability

`resolveRoleChain` walks the parents with a stack that may hold a name many times and names the registry does not know.
Its meaning is a graph: an edge leads from a known role to each of its parents, and a role inherits what the roles
reachable from it hold, whatever cycles, diamonds or dangling names lie on the way.
-/
namespace Kirino
namespace Rbac

open Relation (ReflTransGen TransGen)
open Lib (Explored)

variable {P : Type} {registry registry' : RoleRegistry P} {roleName : String} {p : P}

/-- A known role and one of its parents.  An unknown name has no parents: its parents are never asked for. -/
def RoleRegistry.Parent (registry : RoleRegistry P) (roleName parent : String) : Prop :=
  (registry.getRolePermissions roleName).isSome ∧ parent ∈ registry.roleParents roleName

/-- The role is known, with the permission among its own. -/
def RoleRegistry.Holds (registry : RoleRegistry P) (roleName : String) (p : P) : Prop :=
  ∃ perms, registry.getRolePermissions roleName = some perms ∧ p ∈ perms

/-- **What a role inherits**: the permissions of every known role reachable from it through known roles. -/
def RoleRegistry.Inherits (registry : RoleRegistry P) (roleName : String) (p : P) : Prop :=
  ∃ ancestor, ReflTransGen registry.Parent roleName ancestor ∧ registry.Holds ancestor p

theorem not_holds_of_unknown (hk : registry.getRolePermissions roleName = none) : ¬ registry.Holds roleName p := by
  simp [RoleRegistry.Holds, hk]

theorem holds_iff_of_known {perms : Finset P} (hk : registry.getRolePermissions roleName = some perms) :
    registry.Holds roleName p ↔ p ∈ perms := by
  simp [RoleRegistry.Holds, hk]

/-- The registry has at least the roles, with at least their permissions and parents. -/
structure RoleRegistry.Extends (registry registry' : RoleRegistry P) : Prop where
  perms : ∀ roleName perms, registry.getRolePermissions roleName = some perms →
    ∃ perms', registry'.getRolePermissions roleName = some perms' ∧ perms ⊆ perms'
  parents : ∀ roleName, (registry.getRolePermissions roleName).isSome →
    registry.roleParents roleName ⊆ registry'.roleParents roleName

theorem RoleRegistry.Extends.parent (h : registry.Extends registry') : registry.Parent ≤ registry'.Parent := by
  rintro roleName parent ⟨hk, hp⟩
  obtain ⟨perms, hperms⟩ := Option.isSome_iff_exists.1 hk
  obtain ⟨perms', hperms', -⟩ := h.perms roleName perms hperms
  exact ⟨by rw [hperms']; rfl, h.parents roleName hk hp⟩

theorem RoleRegistry.Extends.holds (h : registry.Extends registry') (hp : registry.Holds roleName p) :
    registry'.Holds roleName p := by
  obtain ⟨perms, hperms, hmem⟩ := hp
  obtain ⟨perms', hperms', hsub⟩ := h.perms roleName perms hperms
  exact ⟨perms', hperms', hsub hmem⟩

/-- Inheritance grows with the registry. -/
theorem RoleRegistry.Extends.inherits (h : registry.Extends registry') (hp : registry.Inherits roleName p) :
    registry'.Inherits roleName p := by
  obtain ⟨ancestor, hr, hholds⟩ := hp
  exact ⟨ancestor, Relation.ReflTransGen.mono h.parent _ _ hr, h.holds hholds⟩

/-- What the walk keeps true: it is a search of the graph, and it has collected what the expanded roles hold. -/
structure Walking (registry : RoleRegistry P) (roleName : String) (allPerms : Finset P) (visited : Finset String)
    (stack : List String) : Prop where
  explored : Explored registry.Parent roleName {u | u ∈ visited} {u | u ∈ stack}
  collected : ∀ p, p ∈ allPerms ↔ ∃ u ∈ visited, registry.Holds u p

theorem walking_start (registry : RoleRegistry P) (roleName : String) :
    Walking registry roleName ∅ ∅ [roleName] where
  explored := by simpa using Explored.init registry.Parent roleName
  collected p := by simp

variable {allPerms perms : Finset P} {visited : Finset String} {current : String} {stack : List String}

theorem setOf_mem_insert (current : String) (visited : Finset String) :
    {u | u ∈ insert current visited} = insert current {u | u ∈ visited} := by
  ext u
  simp

theorem Walking.explored_cons (h : Walking registry roleName allPerms visited (current :: stack)) :
    Explored registry.Parent roleName {u | u ∈ visited} (insert current {u | u ∈ stack}) := by
  have hcons : {u | u ∈ current :: stack} = insert current {u | u ∈ stack} := by
    ext u
    simp
  exact hcons ▸ h.explored

/-- A name that was expanded before is popped and left. -/
theorem Walking.skip (h : Walking registry roleName allPerms visited (current :: stack)) (hv : current ∈ visited) :
    Walking registry roleName allPerms visited stack :=
  ⟨h.explored_cons.skip hv, h.collected⟩

/-- An unknown name is marked and pushes nothing. -/
theorem Walking.unknown (h : Walking registry roleName allPerms visited (current :: stack))
    (hk : registry.getRolePermissions current = none) :
    Walking registry roleName allPerms (insert current visited) stack where
  explored := by
    rw [setOf_mem_insert]
    apply h.explored_cons.expand subset_rfl
    · intro v hv
      exact Or.inl hv
    · rintro v ⟨hknown, -⟩
      rw [hk] at hknown
      exact absurd hknown (by simp)
  collected p := by
    rw [h.collected, Finset.exists_mem_insert]
    simp [not_holds_of_unknown hk]

/-- With an empty stack, what has been collected is what the role inherits. -/
theorem Walking.done (h : Walking registry roleName allPerms visited []) :
    p ∈ allPerms ↔ registry.Inherits roleName p := by
  have hex : Explored registry.Parent roleName {u | u ∈ visited} ∅ := by simpa using h.explored
  rw [h.collected]
  constructor
  · rintro ⟨u, hu, hholds⟩
    exact ⟨u, hex.mem_iff.1 hu, hholds⟩
  · rintro ⟨u, hr, hholds⟩
    exact ⟨u, hex.mem_iff.2 hr, hholds⟩

variable [DecidableEq P]

/-- A known role is expanded: its permissions are collected and its unvisited parents pushed. -/
theorem Walking.known {pushed : List String} (h : Walking registry roleName allPerms visited (current :: stack))
    (hk : registry.getRolePermissions current = some perms)
    (hpush : ∀ v, v ∈ pushed ↔ v ∈ registry.roleParents current ∧ v ∉ insert current visited) :
    Walking registry roleName (allPerms ∪ perms) (insert current visited) (pushed ++ stack) where
  explored := by
    rw [setOf_mem_insert]
    apply h.explored_cons.expand
    · intro u hu
      exact List.mem_append_right _ hu
    · intro v hv
      rcases List.mem_append.1 hv with hnew | hold
      · exact Or.inr ⟨by rw [hk]; rfl, ((hpush v).1 hnew).1⟩
      · exact Or.inl hold
    · -- a parent that is not pushed was visited before, or is the role itself
      rintro v ⟨-, hp⟩
      by_cases hseen : v ∈ insert current visited
      · exact Or.inl (by simpa using hseen)
      · exact Or.inr (List.mem_append_left _ ((hpush v).2 ⟨hp, hseen⟩))
  collected p := by
    rw [Finset.mem_union, h.collected, Finset.exists_mem_insert, holds_iff_of_known hk]
    exact or_comm

/-- **The loop collects what the role inherits**, from any state the walk reaches. -/
theorem mem_resolveLoop (h : Walking registry roleName allPerms visited stack) :
    p ∈ resolveLoop registry allPerms visited stack ↔ registry.Inherits roleName p := by
  induction allPerms, visited, stack using resolveLoop.induct registry with
  | case1 allPerms visited =>
    rw [resolveLoop]
    exact h.done
  | case2 allPerms visited current stack hv ih =>
    rw [resolveLoop, dif_pos hv]
    exact ih (h.skip hv)
  | case3 allPerms visited current stack hv visited' perms hk pushed ih =>
    rw [resolveLoop, dif_neg hv]
    dsimp only
    split
    · next perms' hk' =>
      obtain rfl : perms = perms' := Option.some.inj (hk.symm.trans hk')
      -- the recursion sees each parent together with its membership
      have hpushed : pushed = (registry.roleParents current).filter (fun parent => decide (parent ∉ visited')) := by
        simp [pushed, visited']
      rw [hpushed] at ih
      exact ih (h.known hk (by simp [visited']))
    · next hk' => exact absurd (hk.symm.trans hk') (Option.some_ne_none perms)
  | case4 allPerms visited current stack hv visited' hk ih =>
    rw [resolveLoop, dif_neg hv]
    dsimp only
    split
    · next perms' hk' => exact absurd (hk'.symm.trans hk) (Option.some_ne_none perms')
    · exact ih (h.unknown hk)

/-- **Exact**: the resolved permissions of a role are those of every known role reachable from it through known roles;
a registry with more roles, parents or permissions resolves to at least as much. -/
theorem resolveRoleChain_exact (registry : RoleRegistry P) (roleName : String) :
    (∀ p, p ∈ resolveRoleChain roleName registry ↔ registry.Inherits roleName p) ∧
      ∀ registry', registry.Extends registry' →
        resolveRoleChain roleName registry ⊆ resolveRoleChain roleName registry' := by
  have hmem : ∀ (registry : RoleRegistry P) p,
      p ∈ resolveRoleChain roleName registry ↔ registry.Inherits roleName p := by
    intro registry p
    exact mem_resolveLoop (walking_start registry roleName)
  refine ⟨hmem registry, ?_⟩
  intro registry' hext p hp
  rw [hmem] at hp ⊢
  exact hext.inherits hp

/-- Two roles; `b` inherits from `a`. -/
def twoRoles (parentsOfA : List String) : RoleRegistry TestPerm where
  getRolePermissions roleName := if roleName = "a" then some {.read} else if roleName = "b" then some {.write} else none
  roleParents roleName := if roleName = "a" then parentsOfA else if roleName = "b" then ["a"] else []
  listRoleNames := ["a", "b"]
  listed := by
    intro roleName h
    split_ifs at h with ha hb
    · simp [ha]
    · simp [hb]
    · simp at h

/-- A parent that closes a cycle, after one that names no role. -/
theorem resolveRoleChain_exact_twoRoles :
    TestPerm.write ∈ resolveRoleChain "a" (twoRoles ["ghost", "b"]) ∧
      resolveRoleChain "a" (twoRoles ["ghost"]) ⊆ resolveRoleChain "a" (twoRoles ["ghost", "b"]) := by
  constructor
  · apply ((resolveRoleChain_exact (twoRoles ["ghost", "b"]) "a").1 .write).2
    exact ⟨"b", ReflTransGen.single ⟨by decide, by decide⟩, {.write}, by decide, by decide⟩
  · apply (resolveRoleChain_exact (twoRoles ["ghost"]) "a").2
    constructor
    · intro roleName perms h
      exact ⟨perms, h, subset_rfl⟩
    · intro roleName h parent hp
      by_cases ha : roleName = "a"
      · simp_all [twoRoles]
      · simp_all [twoRoles]

end Rbac
end Kirino
