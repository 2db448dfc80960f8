import Kirino.Rbac.RoleChain
/-!
# Cycle detection — `detect_cycle` and its depth-first probe

The probe keeps two sets: the names it has entered, and among them those on the current recursion path.  A name met
again on the path closes a cycle; a name met again off the path was left without one.  `Probing` is what the two sets
mean in the graph of `RoleRegistry.Parent`: every name on the path leads to the name about to be looked at, and no name
off it leads to a cycle.
-/
namespace Kirino
namespace Rbac

open Relation (ReflTransGen TransGen)
open Lib (CycleFrom cycleFrom_iff_exists_next)

variable {P : Type}

/-- What a probe leaves: its answer and the two sets.  It forgets no name it has entered. -/
structure ProbeResult (visited : Finset String) where
  found : Bool
  visited' : Finset String
  path : Finset String
  grows : visited ⊆ visited'

/-- A probe of a name's parents is over: the name leaves the path, unless a cycle was found. -/
def ProbeResult.leave {visited : Finset String} {name : String} (r : ProbeResult (insert name visited)) :
    ProbeResult visited :=
  ⟨r.found, r.visited', if r.found then r.path else r.path.erase name, (Finset.subset_insert _ _).trans r.grows⟩

/-- One probe after another. -/
def ProbeResult.andThen {visited : Finset String} (r : ProbeResult visited) (r' : ProbeResult r.visited') :
    ProbeResult visited :=
  ⟨r'.found, r'.visited', r'.path, r.grows.trans r'.grows⟩

theorem card_unvisited_le (registry : RoleRegistry P) {visited visited' : Finset String} (h : visited ⊆ visited') :
    (unvisited registry visited').card ≤ (unvisited registry visited).card :=
  Finset.card_le_card (Finset.sdiff_subset_sdiff (Finset.Subset.refl _) h)

mutual

/-- The probe of one name. -/
def dfs (registry : RoleRegistry P) (name : String) (visited path : Finset String) : ProbeResult visited :=
  if name ∈ path then ⟨true, visited, path, Finset.Subset.refl _⟩
  else if _hv : name ∈ visited then ⟨false, visited, path, Finset.Subset.refl _⟩
  else
    let visited' := insert name visited
    let path' := insert name path
    if _hk : (registry.getRolePermissions name).isSome then
      (dfsParents registry (registry.roleParents name) visited' path').leave
    else ⟨false, visited', path'.erase name, Finset.subset_insert _ _⟩
  termination_by ((unvisited registry visited).card, 0)
  decreasing_by exact Prod.Lex.left _ _ (card_unvisited_insert_lt registry visited name _hv _hk)

/-- The loop over a known role's parents; it stops at the first that reports a cycle. -/
def dfsParents (registry : RoleRegistry P) (parents : List String) (visited path : Finset String) :
    ProbeResult visited :=
  match parents with
  | [] => ⟨false, visited, path, Finset.Subset.refl _⟩
  | parent :: rest =>
    let r := dfs registry parent visited path
    if r.found then r
    else
      r.andThen (dfsParents registry rest r.visited' r.path)
  termination_by ((unvisited registry visited).card, parents.length + 1)
  decreasing_by
    · exact Prod.Lex.right _ (Nat.succ_pos _)
    · rcases Nat.lt_or_eq_of_le (card_unvisited_le registry r.grows) with h | h
      · exact Prod.Lex.left _ _ h
      · rw [h]
        exact Prod.Lex.right _ (by simp)

end

def detectCycle (roleName : String) (registry : RoleRegistry P) : Bool := (dfs registry roleName ∅ ∅).found

section Probe

variable {registry : RoleRegistry P} {name parent : String} {visited path : Finset String} {next rest : List String}

/-- What the sets mean while the names of `next` are about to be probed. -/
structure Probing (registry : RoleRegistry P) (visited path : Finset String) (next : List String) : Prop where
  grey : ∀ u ∈ path, ∀ v ∈ next, TransGen registry.Parent u v
  black : ∀ u ∈ visited, u ∉ path → ¬ CycleFrom registry.Parent u

/-- What a probe of the names of `next` reports. -/
structure Probed (registry : RoleRegistry P) (path : Finset String) (next : List String)
    (r : ProbeResult visited) : Prop where
  found : r.found = true → ∃ v ∈ next, CycleFrom registry.Parent v
  clear : r.found = false → ∀ v ∈ next, ¬ CycleFrom registry.Parent v
  restored : r.found = false → r.path = path
  black : r.found = false → ∀ u ∈ r.visited', u ∉ path → ¬ CycleFrom registry.Parent u

/-- Entering a known role puts it on the path, above every name of the path. -/
theorem Probing.enter (h : Probing registry visited path [name]) (hk : (registry.getRolePermissions name).isSome) :
    Probing registry (insert name visited) (insert name path) (registry.roleParents name) where
  grey u hu v hv := by
    have he : registry.Parent name v := ⟨hk, hv⟩
    rcases Finset.mem_insert.1 hu with rfl | hu
    · exact TransGen.single he
    · exact (h.grey u hu name (List.mem_singleton_self name)).tail he
  black u hu hnot := by
    rw [Finset.mem_insert, not_or] at hnot
    exact h.black u (Finset.mem_of_mem_insert_of_ne hu hnot.1) hnot.2

theorem Probing.head (h : Probing registry visited path (parent :: rest)) : Probing registry visited path [parent] where
  grey u hu v hv := by
    obtain rfl := List.mem_singleton.1 hv
    exact h.grey u hu v List.mem_cons_self
  black := h.black

/-- After a parent that leads to no cycle, the others are probed with the path as it was. -/
theorem Probing.tail {r : ProbeResult visited} (h : Probing registry visited path (parent :: rest))
    (hr : Probed registry path [parent] r) (hf : r.found = false) : Probing registry r.visited' r.path rest := by
  rw [hr.restored hf]
  refine ⟨?_, hr.black hf⟩
  intro u hu v hv
  exact h.grey u hu v (List.mem_cons_of_mem parent hv)

theorem Probed.andThen {r : ProbeResult visited} {r' : ProbeResult r.visited'}
    (hr : Probed registry path [parent] r) (hf : r.found = false) (hr' : Probed registry r.path rest r') :
    Probed registry path (parent :: rest) (r.andThen r') := by
  rw [hr.restored hf] at hr'
  refine ⟨?_, ?_, hr'.restored, hr'.black⟩
  · intro hf'
    obtain ⟨v, hv, hc⟩ := hr'.found hf'
    exact ⟨v, List.mem_cons_of_mem parent hv, hc⟩
  · intro hf' v hv
    rcases List.mem_cons.1 hv with rfl | hv
    · exact hr.clear hf v (List.mem_singleton_self v)
    · exact hr'.clear hf' v hv

theorem probed_onPath (h : Probing registry visited path [name]) (hp : name ∈ path) :
    Probed registry path [name] (dfs registry name visited path) := by
  rw [dfs, if_pos hp]
  have hc : CycleFrom registry.Parent name := CycleFrom.of_self (h.grey name hp name (List.mem_singleton_self name))
  exact ⟨fun _ => ⟨name, List.mem_singleton_self name, hc⟩, by simp, by simp, by simp⟩

theorem probed_seen (h : Probing registry visited path [name]) (hp : name ∉ path) (hv : name ∈ visited) :
    Probed registry path [name] (dfs registry name visited path) := by
  rw [dfs, if_neg hp, dif_pos hv]
  refine ⟨by simp, ?_, by simp, fun _ => h.black⟩
  intro _ v hmem
  obtain rfl := List.mem_singleton.1 hmem
  exact h.black v hv hp

/-- A known role leads to a cycle exactly when a parent of it does. -/
theorem Probed.leave {r : ProbeResult (insert name visited)} (hp : name ∉ path)
    (hk : (registry.getRolePermissions name).isSome)
    (hr : Probed registry (insert name path) (registry.roleParents name) r) :
    Probed registry path [name] r.leave := by
  have hclear : r.found = false → ¬ CycleFrom registry.Parent name := by
    intro hf hc
    obtain ⟨v, he, hcv⟩ := cycleFrom_iff_exists_next.1 hc
    exact hr.clear hf v he.2 hcv
  refine ⟨?_, ?_, ?_, ?_⟩
  · intro hf
    obtain ⟨v, hmem, hc⟩ := hr.found hf
    exact ⟨name, List.mem_singleton_self name, CycleFrom.of_next ⟨hk, hmem⟩ hc⟩
  · intro hf v hmem
    obtain rfl := List.mem_singleton.1 hmem
    exact hclear hf
  · intro hf
    have hf' : r.found = false := hf
    simp [ProbeResult.leave, hf', hr.restored hf', hp]
  · intro hf u hu hnot
    by_cases hun : u = name
    · exact hun ▸ hclear hf
    · exact hr.black hf u hu (by simp [hun, hnot])

/-- An unknown name has no parents to follow. -/
theorem probed_unknown (h : Probing registry visited path [name]) (hp : name ∉ path) (hv : name ∉ visited)
    (hk : ¬ (registry.getRolePermissions name).isSome) :
    Probed registry path [name] (dfs registry name visited path) := by
  rw [dfs, if_neg hp, dif_neg hv]
  dsimp only
  rw [dif_neg hk]
  have hclear : ¬ CycleFrom registry.Parent name := by
    intro hc
    obtain ⟨v, he, -⟩ := cycleFrom_iff_exists_next.1 hc
    exact hk he.1
  refine ⟨by simp, ?_, by simp [hp], ?_⟩
  · intro _ v hmem
    obtain rfl := List.mem_singleton.1 hmem
    exact hclear
  · intro _ u hu hnot
    rcases Finset.mem_insert.1 hu with rfl | hu
    · exact hclear
    · exact h.black u hu hnot

/-- **The probe is exact** from any state a run of it reaches. -/
theorem probed_dfs (registry : RoleRegistry P) :
    (∀ name visited path, Probing registry visited path [name] →
      Probed registry path [name] (dfs registry name visited path)) ∧
    (∀ parents visited path, Probing registry visited path parents →
      Probed registry path parents (dfsParents registry parents visited path)) := by
  apply dfs.mutual_induct registry
    (fun name visited path => Probing registry visited path [name] →
      Probed registry path [name] (dfs registry name visited path))
    (fun parents visited path => Probing registry visited path parents →
      Probed registry path parents (dfsParents registry parents visited path))
  · intro name visited path hp h
    exact probed_onPath h hp
  · intro name visited path hp hv h
    exact probed_seen h hp hv
  · intro name visited path hp hv visited' path' hk ih h
    rw [dfs, if_neg hp, dif_neg hv]
    dsimp only
    rw [dif_pos hk]
    exact (ih (h.enter hk)).leave hp hk
  · intro name visited path hp hv hk h
    exact probed_unknown h hp hv hk
  · intro visited path h
    rw [dfsParents]
    exact ⟨by simp, by simp, by simp, fun _ => h.black⟩
  · intro visited path parent rest r hf ih h
    have hr := ih h.head
    rw [dfsParents, if_pos hf]
    refine ⟨?_, ?_, ?_, ?_⟩
    · intro _
      obtain ⟨v, hmem, hc⟩ := hr.found hf
      obtain rfl := List.mem_singleton.1 hmem
      exact ⟨v, List.mem_cons_self, hc⟩
    · intro hf'
      exact absurd (hf.symm.trans hf') Bool.noConfusion
    · exact hr.restored
    · exact hr.black
  · intro visited path parent rest r hf ih ihrest h
    have hf' : r.found = false := by simpa using hf
    have hr := ih h.head
    rw [dfsParents, if_neg hf]
    exact hr.andThen hf' (ihrest (h.tail hr hf'))

end Probe

/-- **Exact**: a cycle is reported exactly when one is reachable through known roles. -/
theorem detectCycle_iff (roleName : String) (registry : RoleRegistry P) :
    detectCycle roleName registry = true ↔
      ∃ u, ReflTransGen registry.Parent roleName u ∧ TransGen registry.Parent u u := by
  have hstart : Probing registry ∅ ∅ [roleName] := ⟨by simp, by simp⟩
  have h := (probed_dfs registry).1 roleName ∅ ∅ hstart
  constructor
  · intro hf
    obtain ⟨v, hmem, hc⟩ := h.found hf
    obtain rfl := List.mem_singleton.1 hmem
    exact hc
  · intro hc
    by_contra hf
    exact h.clear (by simpa [detectCycle] using hf) roleName (List.mem_singleton_self roleName) hc

-- A self-loop is a cycle; a parent met twice off the path is not.
example : detectCycle "a" (twoRoles ["a"]) = true := by
  simp [detectCycle, dfs, dfsParents, ProbeResult.leave, twoRoles]

example : detectCycle "b" (twoRoles ["c", "c"]) = false := by
  simp [detectCycle, dfs, dfsParents, ProbeResult.leave, ProbeResult.andThen, twoRoles]

end Rbac
end Kirino
