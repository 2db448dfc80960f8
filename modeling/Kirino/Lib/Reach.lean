import Mathlib.Logic.Relation
import Mathlib.Data.Set.Insert
/-!
# Reach — searching a directed graph

A worklist search keeps the nodes it has expanded and the nodes it still has to look at.  `Explored` is what it keeps
true: it has met only reachable nodes, and every successor of an expanded node has been met.  When nothing is pending
the expanded nodes are the reachable ones (`Explored.mem_iff`), in whatever order the search took them.

`CycleFrom` is a cycle that a node leads to.  It passes from a node to one of its successors and back
(`cycleFrom_iff_exists_next`), which is all that a search by recursion needs of it.
-/
namespace Kirino
namespace Lib

open Relation (ReflTransGen TransGen)

variable {α : Type*} {E : α → α → Prop} {start u v : α} {V W W' : Set α}

/-- A search from `start` that has expanded `V` and still holds `W`. -/
structure Explored (E : α → α → Prop) (start : α) (V W : Set α) : Prop where
  met : start ∈ V ∪ W
  sound : ∀ u ∈ V ∪ W, ReflTransGen E start u
  closed : ∀ u ∈ V, ∀ v, E u v → v ∈ V ∪ W

theorem Explored.init (E : α → α → Prop) (start : α) : Explored E start ∅ {start} where
  met := Or.inr rfl
  sound := by
    rintro u (hu | rfl)
    · exact absurd hu (Set.notMem_empty u)
    · exact ReflTransGen.refl
  closed u hu := absurd hu (Set.notMem_empty u)

/-- A pending node that is already expanded is dropped. -/
theorem Explored.skip (h : Explored E start V (insert u W)) (hu : u ∈ V) : Explored E start V W := by
  have hsub : V ∪ insert u W = V ∪ W := by rw [Set.union_insert, Set.insert_eq_of_mem (Set.mem_union_left W hu)]
  exact ⟨hsub ▸ h.met, hsub ▸ h.sound, hsub ▸ h.closed⟩

/-- **One expansion**: a pending node becomes an expanded one, its new successors become pending, and the others of its
successors have been met before. -/
theorem Explored.expand (h : Explored E start V (insert u W)) (hsub : W ⊆ W')
    (hnew : ∀ v ∈ W', v ∈ W ∨ E u v) (hnext : ∀ v, E u v → v ∈ insert u V ∪ W') :
    Explored E start (insert u V) W' := by
  have hu : ReflTransGen E start u := h.sound u (Or.inr (Set.mem_insert u W))
  have hkeep : ∀ v ∈ V ∪ insert u W, v ∈ insert u V ∪ W' := by
    rintro v (hv | rfl | hv)
    · exact Or.inl (Set.mem_insert_of_mem u hv)
    · exact Or.inl (Set.mem_insert v V)
    · exact Or.inr (hsub hv)
  refine ⟨hkeep start h.met, ?_, ?_⟩
  · rintro v ((rfl | hv) | hv)
    · exact hu
    · exact h.sound v (Or.inl hv)
    · rcases hnew v hv with hw | he
      · exact h.sound v (Or.inr (Set.mem_insert_of_mem u hw))
      · exact hu.tail he
  · rintro w (rfl | hw) v he
    · exact hnext v he
    · exact hkeep v (h.closed w hw v he)

/-- **A search with nothing pending has expanded the reachable nodes.** -/
theorem Explored.mem_iff (h : Explored E start V ∅) : u ∈ V ↔ ReflTransGen E start u := by
  constructor
  · intro hu
    exact h.sound u (Or.inl hu)
  · intro hr
    have hstart : start ∈ V := by simpa using h.met
    induction hr with
    | refl => exact hstart
    | tail _ he ih => simpa using h.closed _ ih _ he

/-- A cycle is reachable from the node. -/
def CycleFrom (E : α → α → Prop) (u : α) : Prop := ∃ c, ReflTransGen E u c ∧ TransGen E c c

theorem CycleFrom.of_self (h : TransGen E u u) : CycleFrom E u := ⟨u, ReflTransGen.refl, h⟩

theorem CycleFrom.of_next (he : E u v) (h : CycleFrom E v) : CycleFrom E u := by
  obtain ⟨c, hr, hc⟩ := h
  exact ⟨c, hr.head he, hc⟩

/-- **A node leads to a cycle exactly when one of its successors does.** -/
theorem cycleFrom_iff_exists_next : CycleFrom E u ↔ ∃ v, E u v ∧ CycleFrom E v := by
  constructor
  · rintro ⟨c, hr, hc⟩
    rcases hr.cases_head with rfl | ⟨v, he, hv⟩
    · -- the node lies on the cycle itself, and so does its successor there
      obtain ⟨v, he, hv⟩ := Relation.TransGen.head'_iff.1 hc
      exact ⟨v, he, u, hv, hc⟩
    · exact ⟨v, he, c, hv, hc⟩
  · rintro ⟨v, he, h⟩
    exact h.of_next he

end Lib
end Kirino
