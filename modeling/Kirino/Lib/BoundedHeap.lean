import Mathlib.Data.List.Sort
import Mathlib.Data.List.Perm.Subperm
/-!
# BoundedHeap — the smallest items, picked through a bounded max-heap

Every item is pushed; when the heap holds more than the bound, the largest is popped.  What is left are the smallest
items, as many as the bound allows (`smallest_keepSmallest`).  The heap is its items in descending order: a push keeps
the order and a pop takes the head.
-/
namespace Kirino
namespace Lib

section
variable {α : Type*} [LinearOrder α]

def pushPop (n : Nat) (heap : List α) (x : α) : List α :=
  let heap := heap.orderedInsert (fun a b => b ≤ a) x
  if heap.length > n then heap.tail else heap

def keepSmallest (n : Nat) (items : List α) : List α := items.foldl (pushPop n) []

/-- The heap holds smallest items: as many as the bound allows, and none above an item left out. -/
structure Smallest (n : Nat) (items heap : List α) : Prop where
  sorted : heap.Pairwise (fun a b => b ≤ a)
  nodup : heap.Nodup
  subset : heap ⊆ items
  length : heap.length = min n items.length
  least : ∀ x ∈ items, x ∉ heap → ∀ y ∈ heap, y ≤ x

theorem Smallest.nil (n : Nat) : Smallest n ([] : List α) [] :=
  ⟨List.Pairwise.nil, List.nodup_nil, List.nil_subset [], (Nat.min_zero n).symm, nofun⟩

/-- A heap below its bound holds every item. -/
theorem Smallest.mem_of_lt {n : Nat} {items heap : List α} (h : Smallest n items heap) (hn : heap.length < n)
    {x : α} (hx : x ∈ items) : x ∈ heap := by
  have hlen : items.length ≤ heap.length := by
    have := h.length
    omega
  exact ((List.subperm_of_subset h.nodup h.subset).perm_of_length_le hlen).mem_iff.2 hx

theorem mem_push {heap : List α} {x y : α} : y ∈ heap.orderedInsert (fun a b => b ≤ a) x ↔ y = x ∨ y ∈ heap := by
  rw [(List.perm_orderedInsert _ x heap).mem_iff, List.mem_cons]

theorem length_push (heap : List α) (x : α) : (heap.orderedInsert (fun a b => b ≤ a) x).length = heap.length + 1 := by
  rw [(List.perm_orderedInsert _ x heap).length_eq, List.length_cons]

section Push
variable {n : Nat} {items heap : List α} {x : α}

theorem Smallest.nodup_push (h : Smallest n items heap) (hx : x ∉ items) :
    (heap.orderedInsert (fun a b => b ≤ a) x).Nodup :=
  (List.perm_orderedInsert _ x heap).nodup_iff.2 (List.nodup_cons.2 ⟨fun hmem => hx (h.subset hmem), h.nodup⟩)

theorem Smallest.push_subset (h : Smallest n items heap) : heap.orderedInsert (fun a b => b ≤ a) x ⊆ items ++ [x] := by
  intro y hy
  rcases mem_push.1 hy with rfl | hy
  · exact List.mem_append_right _ List.mem_cons_self
  · exact List.mem_append_left _ (h.subset hy)

/-- What a push leaves out was left out before. -/
theorem not_mem_of_push {z : α} (hz : z ∈ items ++ [x]) (hout : z ∉ heap.orderedInsert (fun a b => b ≤ a) x) :
    z ∈ items ∧ z ∉ heap := by
  rw [mem_push, not_or] at hout
  rcases List.mem_append.1 hz with hz | hz
  · exact ⟨hz, hout.2⟩
  · exact absurd (List.mem_singleton.1 hz) hout.1

/-- **A push below the bound.** -/
theorem Smallest.push (h : Smallest n items heap) (hx : x ∉ items) (hroom : heap.length < n) :
    Smallest n (items ++ [x]) (heap.orderedInsert (fun a b => b ≤ a) x) where
  sorted := h.sorted.orderedInsert x
  nodup := h.nodup_push hx
  subset := h.push_subset
  length := by
    have hlength := h.length
    rw [length_push, List.length_append, List.length_singleton]
    omega
  least z hz hout := by
    obtain ⟨hitems, hheap⟩ := not_mem_of_push hz hout
    exact absurd (h.mem_of_lt hroom hitems) hheap

/-- **A push at the bound, and the pop.**  What is left out is the popped item, or was left out before and is above the
popped item or all of the heap. -/
theorem Smallest.pop (h : Smallest n items heap) (hx : x ∉ items) (hfull : n ≤ heap.length) :
    Smallest n (items ++ [x]) (heap.orderedInsert (fun a b => b ≤ a) x).tail := by
  have hsorted := h.sorted.orderedInsert x
  have hnodup := h.nodup_push hx
  have hlen := length_push heap x
  have hlength := h.length
  cases hcons : heap.orderedInsert (fun a b => b ≤ a) x with
  | nil =>
    rw [hcons] at hlen
    cases hlen
  | cons top rest =>
    rw [hcons] at hsorted hnodup hlen
    rw [List.pairwise_cons] at hsorted
    rw [List.nodup_cons] at hnodup
    rw [List.tail_cons]
    have hpushed : ∀ y ∈ top :: rest, y = x ∨ y ∈ heap := fun y hy => mem_push.1 (by rw [hcons]; exact hy)
    refine ⟨hsorted.2, hnodup.2, fun y hy => ?_, ?_, fun z hz hrest y hy => ?_⟩
    · exact h.push_subset (by rw [hcons]; exact List.mem_cons_of_mem top hy)
    · rw [List.length_cons] at hlen
      rw [List.length_append, List.length_singleton]
      omega
    · by_cases htop : z = top
      · exact htop ▸ hsorted.1 y hy
      have hout : z ∉ heap.orderedInsert (fun a b => b ≤ a) x := by
        rw [hcons, List.mem_cons]
        exact not_or.2 ⟨htop, hrest⟩
      obtain ⟨hitems, hheap⟩ := not_mem_of_push hz hout
      have hbelow := h.least z hitems hheap
      rcases hpushed top List.mem_cons_self with rfl | htopheap
      · rcases hpushed y (List.mem_cons_of_mem top hy) with rfl | hyheap
        · exact absurd hy hnodup.1
        · exact hbelow y hyheap
      · exact le_trans (hsorted.1 y hy) (hbelow top htopheap)

/-- **A push and a pop keep the smallest items.** -/
theorem Smallest.pushPop (h : Smallest n items heap) (hx : x ∉ items) : Smallest n (items ++ [x]) (pushPop n heap x) := by
  unfold Lib.pushPop
  dsimp only
  rw [length_push]
  split
  · exact h.pop hx (by omega)
  · exact h.push hx (by omega)

end Push

/-- **What is kept are the smallest items.** -/
theorem smallest_keepSmallest (n : Nat) {items : List α} (h : items.Nodup) : Smallest n items (keepSmallest n items) := by
  have hfold : ∀ (rest pre heap : List α), (pre ++ rest).Nodup → Smallest n pre heap →
      Smallest n (pre ++ rest) (rest.foldl (Lib.pushPop n) heap) := by
    intro rest
    induction rest with
    | nil =>
      intro pre heap _ hpre
      simpa using hpre
    | cons x rest ih =>
      intro pre heap hnodup hpre
      have hx : x ∉ pre := by
        intro hmem
        exact (List.nodup_append.1 hnodup).2.2 x hmem x List.mem_cons_self rfl
      have := ih (pre ++ [x]) (Lib.pushPop n heap x) (by simpa using hnodup) (hpre.pushPop hx)
      simpa using this
  exact hfold items [] [] h (Smallest.nil n)

end

end Lib
end Kirino
