import Mathlib.Algebra.BigOperators.Group.List.Basic
import Mathlib.Algebra.GroupWithZero.Nat
import Mathlib.Data.List.Dedup
import Kirino.Lib.HashMap
/-!
# Tally — how often each element occurs

Elements are counted one by one into a map.  Each is there with the number of its occurrences, so that the keys are the
distinct elements (`len_tally`) and the numbers add up to all of them (`sum_tally`).
-/
namespace Kirino
namespace Lib

variable {K : Type} [DecidableEq K]

namespace HashMap

/-- The sum of the values. -/
def sum (m : HashMap K Nat) : Nat := (m.entries.map Prod.snd).sum

theorem sum_insert (m : HashMap K Nat) (k : K) (v : Nat) : (m.insert k v).sum + (m.get? k).getD 0 = m.sum + v := by
  have hcons : (m.insert k v).sum = v + ((m.remove k).entries.map Prod.snd).sum := rfl
  rw [hcons]
  unfold sum
  cases h : m.get? k with
  | some w =>
    rw [((entries_perm h).map Prod.snd).sum_eq, List.map_cons, List.sum_cons, Option.getD_some]
    omega
  | none =>
    rw [entries_remove_of_none h, Option.getD_none]
    omega

end HashMap

/-- One more of the element. -/
def increment (counts : HashMap K Nat) (k : K) : HashMap K Nat := counts.insert k ((counts.get? k).getD 0 + 1)

def tally (l : List K) : HashMap K Nat := l.foldl increment HashMap.empty

theorem get?_foldl_increment (l : List K) (counts : HashMap K Nat) (k : K) :
    (l.foldl increment counts).get? k = if k ∈ l then some ((counts.get? k).getD 0 + l.count k) else counts.get? k := by
  induction l generalizing counts with
  | nil => simp
  | cons x l ih =>
    rw [List.foldl_cons, ih, increment, HashMap.get?_insert]
    by_cases hx : k = x
    · subst hx
      by_cases hl : k ∈ l
      · simp [hl]
        omega
      · simp [hl, List.count_eq_zero_of_not_mem hl]
    · simp [hx, Ne.symm hx]

/-- **Each element is counted.** -/
theorem get?_tally (l : List K) (k : K) : (tally l).get? k = if k ∈ l then some (l.count k) else none := by
  unfold tally
  rw [get?_foldl_increment]
  simp

theorem sum_foldl_increment (l : List K) (counts : HashMap K Nat) : (l.foldl increment counts).sum = counts.sum + l.length := by
  induction l generalizing counts with
  | nil => rfl
  | cons x l ih =>
    have hinsert := counts.sum_insert x ((counts.get? x).getD 0 + 1)
    rw [List.foldl_cons, ih, increment, List.length_cons]
    omega

theorem sum_tally (l : List K) : (tally l).sum = l.length := by
  unfold tally
  rw [sum_foldl_increment]
  exact Nat.zero_add _

theorem len_tally (l : List K) : (tally l).len = l.dedup.length := by
  have hperm : (tally l).keys.Perm l.dedup := by
    refine (List.perm_ext_iff_of_nodup (tally l).nodup (List.nodup_dedup l)).2 (fun k => ?_)
    change k ∈ (tally l).keys ↔ _
    rw [HashMap.mem_keys_iff, get?_tally, List.mem_dedup]
    by_cases hk : k ∈ l <;> simp [hk]
  rw [HashMap.len_eq_length_keys, hperm.length_eq]

end Lib
end Kirino
