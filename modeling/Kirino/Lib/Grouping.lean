import Mathlib.Data.List.Induction
import Kirino.Lib.Tally
/-!
# Grouping — one accumulator for each key

The elements of a list are taken one by one into the accumulator of their key, which starts anew with the first of them.
Each key has what its own elements make of the start, in their order (`get?_group`), and a measure that every element adds
to sums over the keys to what it is over the list (`sumBy_group`).
-/
namespace Kirino
namespace Lib

variable {α K V : Type}

namespace HashMap

/-- The sum of a measure of the values. -/
def sumBy (m : HashMap K V) (μ : V → Nat) : Nat := (m.entries.map (fun e => μ e.2)).sum

variable [DecidableEq K]

theorem sumBy_insert (m : HashMap K V) (μ : V → Nat) (k : K) (v : V) :
    (m.insert k v).sumBy μ + ((m.get? k).map μ).getD 0 = m.sumBy μ + μ v := by
  have hcons : (m.insert k v).sumBy μ = μ v + ((m.remove k).entries.map (fun e => μ e.2)).sum := rfl
  rw [hcons]
  unfold sumBy
  cases h : m.get? k with
  | some w =>
    rw [((entries_perm h).map (fun e => μ e.2)).sum_eq, List.map_cons, List.sum_cons, Option.map_some, Option.getD_some]
    dsimp only
    omega
  | none =>
    rw [entries_remove_of_none h, Option.map_none, Option.getD_none]
    omega

end HashMap

variable [DecidableEq K] (key : α → K) (start : V) (step : V → α → V)

/-- One more element, in the accumulator of its key. -/
def record (m : HashMap K V) (a : α) : HashMap K V := m.insert (key a) (step ((m.get? (key a)).getD start) a)

def group (l : List α) : HashMap K V := l.foldl (record key start step) HashMap.empty

/-- The elements of the key. -/
def ofKey (k : K) (l : List α) : List α := l.filter (fun a => decide (key a = k))

theorem group_concat (l : List α) (a : α) :
    group key start step (l ++ [a]) = record key start step (group key start step l) a := List.foldl_concat _ _ _ _

theorem ofKey_concat (k : K) (l : List α) (a : α) :
    ofKey key k (l ++ [a]) = if key a = k then ofKey key k l ++ [a] else ofKey key k l := by
  unfold ofKey
  rw [List.filter_append]
  by_cases h : key a = k <;> simp [h]

/-- **Each key has what its elements make of the start.** -/
theorem get?_group (l : List α) (k : K) : (group key start step l).get? k =
    if k ∈ l.map key then some ((ofKey key k l).foldl step start) else none := by
  induction l using List.reverseRecOn with
  | nil => rfl
  | append_singleton l a ih =>
    rw [group_concat, record, HashMap.get?_insert, ofKey_concat, List.map_append]
    by_cases h : key a = k
    · subst h
      have hnil : key a ∉ l.map key → ofKey key (key a) l = [] := fun hnot =>
        List.filter_eq_nil_iff.2 (fun b hb hkey => hnot (List.mem_map.2 ⟨b, hb, of_decide_eq_true hkey⟩))
      rw [ih]
      by_cases hmem : key a ∈ l.map key
      · simp [hmem]
      · simp [hmem, hnil hmem]
    · rw [ih]
      simp [h, Ne.symm h]

theorem sum_toNat (p : α → Bool) : ∀ l : List α, (l.map (fun a => (p a).toNat)).sum = l.countP p
  | [] => rfl
  | a :: l => by
    rw [List.map_cons, List.sum_cons, sum_toNat p l, List.countP_cons, Nat.add_comm]
    cases p a <;> rfl

/-- **A measure sums over the keys to what it is over the list.** -/
theorem sumBy_group (μ : V → Nat) (w : α → Nat) (hstart : μ start = 0) (hstep : ∀ v a, μ (step v a) = μ v + w a)
    (l : List α) : (group key start step l).sumBy μ = (l.map w).sum := by
  induction l using List.reverseRecOn with
  | nil => rfl
  | append_singleton l a ih =>
    rw [group_concat, record, List.map_append, List.sum_append]
    generalize group key start step l = m at ih
    have hinsert := m.sumBy_insert μ (key a) (step ((m.get? (key a)).getD start) a)
    have hold : μ ((m.get? (key a)).getD start) = ((m.get? (key a)).map μ).getD 0 := by
      cases m.get? (key a) <;> simp [hstart]
    rw [hstep, ih, hold] at hinsert
    simp only [List.map_cons, List.map_nil, List.sum_singleton]
    omega

end Lib
end Kirino
