import Mathlib.Data.List.Sort
/-!
# StableSort — sorting that keeps the order of equals

Insertion sort stands for the stable sort of a standard library.  What it gives is a sorted permutation
(`List.pairwise_insertionSort`, `List.perm_insertionSort`); here, that elements related both ways keep their order
(`filter_insertionSort`).
-/
namespace Kirino
namespace Lib

variable {α : Type*} (r : α → α → Prop) [DecidableRel r]

/-- **A stable sort keeps the order of the elements that are related to each other.** -/
theorem filter_insertionSort {p : α → Bool} (hp : ∀ a b, p a = true → p b = true → r a b) (l : List α) :
    (l.insertionSort r).filter p = l.filter p := by
  have hpairwise : (l.filter p).Pairwise r :=
    List.pairwise_of_forall_mem_list (fun a ha b hb => hp a b (List.mem_filter.1 ha).2 (List.mem_filter.1 hb).2)
  have hsub := (List.sublist_insertionSort hpairwise List.filter_sublist).filter p
  rw [List.filter_filter] at hsub
  simp only [Bool.and_self] at hsub
  have hlength := ((List.perm_insertionSort r l).filter p).length_eq
  exact (hsub.eq_of_length hlength.symm).symm

end Lib
end Kirino
