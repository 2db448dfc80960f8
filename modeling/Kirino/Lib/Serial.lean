import Mathlib.Data.List.Nodup
import Kirino.Lib.Machine
/-!
# Serial — operations that take effect at one event each

A machine whose events each leave a view of the state alone, or perform one operation on it for one call, has a
sequential order: the operations in the order of their events give the view that the run reaches (`exists_serialOrder`).
-/
namespace Kirino
namespace Lib

variable {σ ε ο ι κ υ : Type}

/-- What an operation takes effect on, and the events at which the operation of a call does so. -/
structure Effects (σ ε ι κ υ : Type) where
  view : σ → υ
  execute : κ → υ → υ
  Commits : σ → ε → ι → κ → Prop

namespace Effects

variable (F : Effects σ ε ι κ υ) (M : Machine σ ε ο)

/-- In the run the operation of the call has taken effect. -/
def HasCommitted (s : σ) (es : List ε) (i : ι) (op : κ) : Prop := M.Occurs (fun s e => F.Commits s e i op) s es

/-- **A sequential order of the operations that have taken effect**, one for each call, whose execution one after the
other gives the view after the run. -/
structure SerialOrder (s : σ) (es : List ε) (order : List (ι × κ)) : Prop where
  once : (order.map Prod.fst).Nodup
  committed : ∀ i op, (i, op) ∈ order ↔ F.HasCommitted M s es i op
  view : F.view (M.run s es) = order.foldl (fun v c => F.execute c.2 v) (F.view s)

/-- An event does at most one operation, and what is done stays done. -/
structure Atomic (Done : σ → ι → Prop) : Prop where
  unique : ∀ s e i op j op', F.Commits s e i op → F.Commits s e j op' → i = j ∧ op = op'
  stays : ∀ s e i, Done s i → Done (M.step s e) i

/-- The event leaves the view alone, or performs the operation that takes effect at it, the first of its call. -/
def Performs (Done : σ → ι → Prop) (s : σ) (e : ε) : Prop :=
  (∀ i op, ¬ F.Commits s e i op) ∧ F.view (M.step s e) = F.view s ∨
    ∃ i op, F.Commits s e i op ∧ (¬ Done s i ∧ Done (M.step s e) i) ∧
      F.view (M.step s e) = F.execute op (F.view s)

variable {F M} {s : σ} {es : List ε} {order : List (ι × κ)}

theorem SerialOrder.quiet (h : F.SerialOrder M s es order) {e : ε} (hnot : ∀ i op, ¬ F.Commits (M.run s es) e i op)
    (hview : F.view (M.step (M.run s es) e) = F.view (M.run s es)) : F.SerialOrder M s (es ++ [e]) order where
  once := h.once
  committed i op := by
    rw [h.committed i op, HasCommitted, HasCommitted, M.occurs_append]
    exact ⟨Or.inl, fun hi => hi.resolve_right (hnot i op)⟩
  view := by
    rw [Machine.run_append]
    exact hview.trans h.view

/-- **The operation that takes effect comes next in the order.** -/
theorem SerialOrder.commit {Done : σ → ι → Prop} (hatomic : F.Atomic M Done) (h : F.SerialOrder M s es order) {e : ε} {i : ι}
    {op : κ} (hcommit : F.Commits (M.run s es) e i op) (hfirst : i ∉ order.map Prod.fst)
    (hview : F.view (M.step (M.run s es) e) = F.execute op (F.view (M.run s es))) :
    F.SerialOrder M s (es ++ [e]) (order ++ [(i, op)]) where
  once := by
    rw [List.map_append, List.nodup_append]
    refine ⟨h.once, List.nodup_singleton _, fun a ha b hb => ?_⟩
    obtain rfl := List.mem_singleton.1 hb
    exact fun hab => hfirst (hab ▸ ha)
  committed j op' := by
    rw [List.mem_append, h.committed j op', HasCommitted, HasCommitted, M.occurs_append]
    refine or_congr_right ⟨fun hj => ?_, fun hj => ?_⟩
    · obtain ⟨rfl, rfl⟩ := Prod.mk.inj (List.mem_singleton.1 hj)
      exact hcommit
    · obtain ⟨rfl, rfl⟩ := hatomic.unique _ _ _ _ _ _ hj hcommit
      exact List.mem_singleton_self _
  view := by
    rw [Machine.run_append, List.foldl_append]
    refine hview.trans ?_
    rw [h.view]
    rfl

/-- **The serialization rule**: the operations of a run whose events all perform at most one have a sequential order. -/
theorem exists_serialOrder {Done : σ → ι → Prop} (hatomic : F.Atomic M Done) (s : σ) (es : List ε)
    (ha : M.Along (F.Performs M Done) s es) : ∃ order, F.SerialOrder M s es order := by
  suffices h : ∃ order, F.SerialOrder M s es order ∧ ∀ i ∈ order.map Prod.fst, Done (M.run s es) i from
    h.imp (fun _ h => h.1)
  refine M.run_history (F.Performs M Done)
    (fun es s' => ∃ order, F.SerialOrder M s es order ∧ ∀ i ∈ order.map Prod.fst, Done s' i) s ?_ ?_ es ha
  · refine ⟨[], ⟨List.nodup_nil, fun i op => ⟨nofun, ?_⟩, rfl⟩, nofun⟩
    rintro ⟨j, e, hj, -⟩
    cases hj
  · rintro es e ⟨order, horder, hdone⟩ (⟨hnot, hview⟩ | ⟨i, op, hcommit, ⟨hundone, hnext⟩, hview⟩)
    · exact ⟨order, horder.quiet hnot hview, fun i hi => hatomic.stays _ e i (hdone i hi)⟩
    · refine ⟨_, horder.commit hatomic hcommit (fun hi => hundone (hdone i hi)) hview, fun j hj => ?_⟩
      rw [List.map_append, List.mem_append] at hj
      rcases hj with hj | hj
      · exact hatomic.stays _ e j (hdone j hj)
      · obtain rfl := List.mem_singleton.1 hj
        exact hnext

end Effects
end Lib
end Kirino
